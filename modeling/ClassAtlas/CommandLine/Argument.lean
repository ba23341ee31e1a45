import ClassAtlas.Path

/-!
# Arguments

The arguments of a command line are switches, which begin with a hyphen, and words.  A
switch is a flag or takes a value, which is attached to it or is the next argument.
After two hyphens alone all arguments are words.
-/

namespace ClassAtlas.CommandLine

structure Switch where
  /-- What follows two hyphens. -/
  name : String
  /-- What may follow one hyphen instead; only a switch with a value has it. -/
  letter : Option Char := none
  takesValue : Bool := true
  deriving DecidableEq, Repr

def Switch.flag (name : String) : Switch :=
  { name, takesValue := false }

/-- What an argument says. -/
inductive Argument where
  | flag (name : String)
  | setting (name value : String)
  | word (text : String)
  deriving DecidableEq, Repr

/-- The argument begins like a switch.  A hyphen alone does not. -/
def beginsSwitch (argument : String) : Bool :=
  argument.toList.head? == some '-' && argument.length > 1

/-- A switch with the value that is attached to it, or else with the next argument. -/
def complete (switch : Switch) (attached : Option (List Char)) (rest : List String) :
    Option (Argument × List String) :=
  match switch.takesValue, attached, rest with
  | false, none, rest => some (.flag switch.name, rest)
  | false, some _, _ => none
  | true, some value, rest => some (.setting switch.name (String.ofList value), rest)
  | true, none, value :: rest =>
      if beginsSwitch value then none else some (.setting switch.name value, rest)
  | true, none, [] => none

/-- A name, and the value that is attached to it by an equals sign. -/
def cutAttached (text : List Char) : List Char × Option (List Char) :=
  match Text.cut ['='] text with
  | some (name, value) => (name, some value)
  | none => (text, none)

/-- The value that follows a letter; an equals sign before it does not count. -/
def afterLetter : List Char → Option (List Char)
  | [] => none
  | text => some (Text.withoutStart ['='] text)

/-- Reads an argument that begins like a switch, with the arguments after it. -/
def readSwitch (switches : List Switch) (argument : String) (rest : List String) :
    Option (Argument × List String) :=
  match argument.toList with
  | '-' :: '-' :: text => do
      let (name, attached) := cutAttached text
      let switch ← switches.find? (·.name.toList == name)
      complete switch attached rest
  | '-' :: letter :: text => do
      let switch ← switches.find? (·.letter == some letter)
      complete switch (afterLetter text) rest
  | _ => none

theorem length_of_complete {switch : Switch} {attached : Option (List Char)}
    {rest remaining : List String} {argument : Argument}
    (found : complete switch attached rest = some (argument, remaining)) :
    remaining.length ≤ rest.length := by
  unfold complete at found
  split at found
  · simp only [Option.some.injEq, Prod.mk.injEq] at found
    exact Nat.le_of_eq (congrArg List.length found.2.symm)
  · simp at found
  · simp only [Option.some.injEq, Prod.mk.injEq] at found
    exact Nat.le_of_eq (congrArg List.length found.2.symm)
  · split at found
    · simp at found
    · simp only [Option.some.injEq, Prod.mk.injEq] at found
      rw [← found.2]
      simp
  · simp at found

theorem length_of_readSwitch {switches : List Switch} {text : String}
    {rest remaining : List String} {argument : Argument}
    (found : readSwitch switches text rest = some (argument, remaining)) :
    remaining.length ≤ rest.length := by
  unfold readSwitch at found
  split at found
  · simp only [Option.bind_eq_bind, Option.bind_eq_some_iff] at found
    obtain ⟨_, _, found⟩ := found
    exact length_of_complete found
  · simp only [Option.bind_eq_bind, Option.bind_eq_some_iff] at found
    obtain ⟨_, _, found⟩ := found
    exact length_of_complete found
  · simp at found

/-- The arguments up to the first word, and the rest. -/
def scanLeading (switches : List Switch) :
    List String → Option (List Argument × List String)
  | [] => some ([], [])
  | text :: rest =>
      if beginsSwitch text then
        match _found : readSwitch switches text rest with
        | some (argument, remaining) =>
            (scanLeading switches remaining).map fun (others, rest) =>
              (argument :: others, rest)
        | none => none
      else some ([], text :: rest)
termination_by arguments => arguments.length
decreasing_by
  have shorter := length_of_readSwitch _found
  simp only [List.length_cons]
  omega

def scan (switches : List Switch) : List String → Option (List Argument)
  | [] => some []
  | text :: rest =>
      if text = "--" then some (rest.map .word)
      else if beginsSwitch text then
        match _found : readSwitch switches text rest with
        | some (argument, remaining) => (scan switches remaining).map (argument :: ·)
        | none => none
      else (scan switches rest).map (.word text :: ·)
termination_by arguments => arguments.length
decreasing_by
  · have shorter := length_of_readSwitch _found
    simp only [List.length_cons]
    omega
  · simp

/-! ## What arguments say -/

def words (arguments : List Argument) : List String :=
  arguments.filterMap fun
    | .word text => some text
    | _ => none

/-- All values that are given to a switch. -/
def values (name : String) (arguments : List Argument) : List String :=
  arguments.filterMap fun
    | .setting other value => if other = name then some value else none
    | _ => none

/-- The value of a switch that may be given once. -/
def value? {β : Type} (name : String) (read : String → Option β)
    (arguments : List Argument) : Option (Option β) :=
  match values name arguments with
  | [] => some none
  | [text] => (read text).map some
  | _ => none

/-- A flag is given; it may be given once. -/
def isSet? (name : String) (arguments : List Argument) : Option Bool :=
  match arguments.count (.flag name) with
  | 0 => some false
  | 1 => some true
  | _ => none

/-- A value that is a path: any text that is not empty. -/
def path? (text : String) : Option Path :=
  if text.isEmpty then none else some ⟨text⟩

end ClassAtlas.CommandLine
