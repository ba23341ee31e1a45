import ClassAtlas.Indexing.Scan
import ClassAtlas.Weight

/-!
# Indexing passes

A pass runs scans and adds what they find to an index.  Scans of compiled classes run
side by side, up to a limit; those of sources follow one at a time.  A pass proceeds by
moves: a scan starts, a running scan adds one fact, a scan that has added all its
facts is collected into the summary.  Any order of moves is a possible course of the
pass, and every course ends because each move leaves less to do; `run` follows one of
them.
-/

namespace ClassAtlas.Indexing

/-- The outcome of a pass in numbers. -/
structure Summary where
  archives : Nat := 0
  directories : Nat := 0
  sourceArchives : Nat := 0
  /-- The scans that could not read their part of the classpath. -/
  failed : Nat := 0
  /-- The classes found, those found twice counted twice. -/
  entries : Nat := 0
  elapsedMilliseconds : Nat := 0
  deriving DecidableEq, Repr

/-- The summary with one more scan, which found so many classes or failed. -/
def Summary.count (summary : Summary) (kind : ScanKind) : Option Nat → Summary
  | none => { summary with failed := summary.failed + 1 }
  | some entries =>
      let summary := { summary with entries := summary.entries + entries }
      match kind with
      | .archive => { summary with archives := summary.archives + 1 }
      | .directory => { summary with directories := summary.directories + 1 }
      | .sources => { summary with sourceArchives := summary.sourceArchives + 1 }

/-- A scan that has started. -/
structure Running where
  kind : ScanKind
  /-- How many classes it found, unless it failed. -/
  found : Option Nat
  /-- What it has yet to add to the index. -/
  left : List Finding
  deriving DecidableEq, Repr

def Running.ofScan (files : FileTree) (scan : Scan) : Running where
  kind := scan.kind
  found := (scan.classes? files).map List.length
  left := scan.findings files

/-- The state of a pass. -/
structure Pass where
  index : ClassIndex
  /-- The scans of compiled classes that have not started. -/
  waiting : List Scan
  /-- The scans of sources that have not started. -/
  sources : List Scan
  running : List Running := []
  summary : Summary := {}

/-- What may happen next in a pass; a running scan is named by its position. -/
inductive Move where
  | start
  | write (position : Nat)
  | collect (position : Nat)
  deriving DecidableEq, Repr

namespace Pass

/-- The scan that may start next, and the pass without it. -/
def nextScan? (limit : Nat) (pass : Pass) : Option (Scan × Pass) :=
  match pass.waiting, pass.sources with
  | scan :: waiting, _ =>
      if pass.running.length < max limit 1 then some (scan, { pass with waiting }) else none
  | [], scan :: sources =>
      if pass.running.isEmpty then some (scan, { pass with sources }) else none
  | [], [] => none

/-- The pass after a move, when the move is possible. -/
def step? (files : FileTree) (limit : Nat) (pass : Pass) : Move → Option Pass
  | .start =>
      (nextScan? limit pass).map fun (scan, rest) =>
        { rest with running := rest.running ++ [Running.ofScan files scan] }
  | .write position =>
      match pass.running[position]? with
      | some ⟨kind, found, finding :: left⟩ =>
          some { pass with
            index := pass.index.add finding
            running := pass.running.set position ⟨kind, found, left⟩ }
      | _ => none
  | .collect position =>
      match pass.running[position]? with
      | some ⟨kind, found, []⟩ =>
          some { pass with
            summary := pass.summary.count kind found
            running := pass.running.eraseIdx position }
      | _ => none

/-- The moves that a scan still causes once it has started. -/
def runningWeight (scan : Running) : Nat :=
  scan.left.length + 1

/-- The moves that a scan causes. -/
def scanWeight (files : FileTree) (scan : Scan) : Nat :=
  runningWeight (Running.ofScan files scan) + 1

/-- The number of moves until the pass ends. -/
def weight (files : FileTree) (pass : Pass) : Nat :=
  weightOf (scanWeight files) pass.waiting + weightOf (scanWeight files) pass.sources +
    weightOf runningWeight pass.running

/-- Starting a scan moves it from those that wait to those that run. -/
theorem weight_of_nextScan? (files : FileTree) {limit : Nat} {pass rest : Pass} {scan : Scan}
    (found : nextScan? limit pass = some (scan, rest)) :
    rest.weight files + scanWeight files scan = pass.weight files := by
  unfold nextScan? at found
  split at found
  · rename_i waiting _ eq
    split at found
    · simp only [Option.some.injEq, Prod.mk.injEq] at found
      obtain ⟨rfl, rfl⟩ := found
      simp only [weight, eq, weightOf.cons]
      omega
    · simp at found
  · rename_i sources eqWaiting eq
    split at found
    · simp only [Option.some.injEq, Prod.mk.injEq] at found
      obtain ⟨rfl, rfl⟩ := found
      simp only [weight, eq, weightOf.cons]
      omega
    · simp at found
  · simp at found

/-- Each move leaves one move less to do. -/
theorem weight_of_step? {files : FileTree} {limit : Nat} {pass next : Pass} {move : Move}
    (made : pass.step? files limit move = some next) :
    next.weight files + 1 = pass.weight files := by
  cases move with
  | start =>
      simp only [step?, Option.map_eq_some_iff, Prod.exists] at made
      obtain ⟨scan, rest, found, rfl⟩ := made
      have moved := weight_of_nextScan? files found
      simp only [scanWeight, weight, weightOf.append, weightOf.cons, weightOf.nil]
        at moved ⊢
      omega
  | write position =>
      simp only [step?] at made
      split at made
      · rename_i kind count finding left found
        simp only [Option.some.injEq] at made
        subst made
        have less := weightOf.set runningWeight ⟨kind, count, left⟩ found
        have before : runningWeight ⟨kind, count, finding :: left⟩ = left.length + 2 := rfl
        have after : runningWeight ⟨kind, count, left⟩ = left.length + 1 := rfl
        simp only [weight]
        omega
      · simp at made
  | collect position =>
      simp only [step?] at made
      split at made
      · rename_i kind count found
        simp only [Option.some.injEq] at made
        subst made
        have less := weightOf.eraseIdx runningWeight found
        have one : runningWeight ⟨kind, count, []⟩ = 1 := rfl
        simp only [weight]
        omega
      · simp at made

/-- The move of a pass that starts scans as soon as it may and lets the one that has run
longest come to its end. -/
def eagerMove (limit : Nat) (pass : Pass) : Move :=
  if (nextScan? limit pass).isSome then .start
  else if pass.running.head?.any (·.left.isEmpty) then .collect 0
  else .write 0

/-- The pass at its end. -/
def run (files : FileTree) (limit : Nat) (pass : Pass) : Pass :=
  match _made : pass.step? files limit (eagerMove limit pass) with
  | some next => run files limit next
  | none => pass
termination_by pass.weight files
decreasing_by
  have less := weight_of_step? _made
  omega

end Pass

/-- Adds what scans find to an index. -/
def run (files : FileTree) (limit : Nat) (index : ClassIndex)
    (scans sources : List Scan) : ClassIndex × Summary :=
  let pass := Pass.run files limit { index, waiting := scans, sources }
  (pass.index, pass.summary)

/-- Adds the classes of a module to an index. -/
def ofModule (files : FileTree) (limit : Nat) (index : ClassIndex) (module : Module) :
    ClassIndex × Summary :=
  run files limit index (Scan.ofModule files module) (Scan.sourcesOfModule module)

end ClassAtlas.Indexing
