import ClassAtlas.Dependency
import ClassAtlas.Text.WordCharacter

/-!
# Transcripts of dependency listings

A build tool prints its dependency listing among other messages.  Each line of a
transcript is read on its own: it may mark a module, name what is being built, name
the goal of a module, list a dependency, or be of no interest.  The report keeps the
first identity that the marks give and all the listed dependencies.
-/

namespace ClassAtlas

/-- What a transcript says about a module. -/
structure Transcript where
  group : Option String := none
  artifact : Option String := none
  version : Option String := none
  dependencies : List Dependency := []
  deriving DecidableEq, Repr

namespace Transcript

open Text (isBlank trimStart)

/-- The text after the parameters and the final letter of a colour sequence. -/
def afterColour? (text : List Char) : Option (List Char) :=
  match text.dropWhile fun character => Text.isAsciiDigit character || character == ';' with
  | letter :: rest => if Text.isAsciiLetter letter then some rest else none
  | [] => none

theorem length_of_afterColour? {text rest : List Char}
    (found : afterColour? text = some rest) : rest.length < text.length := by
  simp only [afterColour?] at found
  split at found
  · rename_i letter after equal
    have shrink : (text.dropWhile fun character =>
        Text.isAsciiDigit character || character == ';').length ≤ text.length :=
      (List.dropWhile_suffix _).length_le
    rw [equal, List.length_cons] at shrink
    split at found
    · simp only [Option.some.injEq] at found
      subst found
      omega
    · simp at found
  · simp at found

/-- The text without colour sequences. -/
def withoutColours (text : List Char) : List Char :=
  match text with
  | [] => []
  | '\x1b' :: '[' :: rest =>
      match _found : afterColour? rest with
      | some after => withoutColours after
      | none => '\x1b' :: withoutColours ('[' :: rest)
  | character :: rest => character :: withoutColours rest
termination_by text.length
decreasing_by
  · have := length_of_afterColour? _found
    simp only [List.length_cons]
    omega
  · simp
  · simp

/-- The text of an informational message: what follows the level and blanks. -/
def message? (line : List Char) : Option (List Char) :=
  match "[INFO]".toList.isPrefixOf? line with
  | some rest => if rest.head?.any isBlank then some (trimStart rest) else none
  | none => none

/-- A character of a group or artifact in a module mark. -/
def isMarkField (character : Char) : Bool :=
  !(isBlank character || character == ':' || character == '<' || character == '>')

/-- Takes a run of characters that is not empty. -/
def takeRun (test : Char → Bool) (text : List Char) : Option (List Char × List Char) :=
  match text.takeWhile test with
  | [] => none
  | run => some (run, text.dropWhile test)

/-- The text without the hyphens at its start. -/
def skipHyphens (text : List Char) : List Char :=
  text.dropWhile (· == '-')

/-- Group and artifact of a module mark `--< group:artifact >--`. -/
def moduleMark? (message : List Char) : Option (String × String) := do
  let inside ← ['<'].isPrefixOf? (skipHyphens message)
  let (group, rest) ← takeRun isMarkField (trimStart inside)
  let rest ← [':'].isPrefixOf? rest
  let (artifact, rest) ← takeRun isMarkField rest
  let rest ← ['>'].isPrefixOf? (trimStart rest)
  if Text.isBlankText (skipHyphens rest) then
    some (String.ofList group, String.ofList artifact)
  else none

/-- A count such as `[2/5]` and nothing after it but blanks. -/
def isCount (text : List Char) : Bool :=
  let rest := do
    let rest ← ['['].isPrefixOf? text
    let (_, rest) ← takeRun Text.isDigit rest
    let rest ← ['/'].isPrefixOf? rest
    let (_, rest) ← takeRun Text.isDigit rest
    [']'].isPrefixOf? rest
  rest.any Text.isBlankText

/-- The version when the text is nothing but blanks, one word and optionally a count. -/
def versionOnly? (text : List Char) : Option (List Char) :=
  if !text.head?.any isBlank then none
  else
    match takeRun (!isBlank ·) (trimStart text) with
    | some (version, rest) =>
        if Text.isBlankText rest || isCount (trimStart rest) then some version else none
    | none => none

/-- The shortest name that leaves nothing but a version after it. -/
def nameAndVersion? : List Char → Option (List Char × List Char)
  | [] => none
  | character :: rest =>
      match versionOnly? rest with
      | some version => some ([character], version)
      | none => (nameAndVersion? rest).map fun (name, version) => (character :: name, version)

/-- Name and version after a run of blanks.  The name begins after the blanks if it
can, else as late as possible among them. -/
def afterBlanks? (body : List Char) : List Char → Option (List Char × List Char)
  | [] => nameAndVersion? body
  | blank :: rest =>
      (afterBlanks? body rest).orElse fun _ => nameAndVersion? (blank :: rest ++ body)

/-- Name and version in a message that something is being built. -/
def building? (message : List Char) : Option (List Char × List Char) :=
  match "Building".toList.isPrefixOf? message with
  | some rest =>
      match rest.takeWhile isBlank with
      | [] => none
      | _ :: blanks => afterBlanks? (trimStart rest) blanks
  | none => none

/-- The artifact in the message `--- plugin @ artifact ---` that a goal is run.  Between
the first hyphens and the sign stand at least two blanks or a word. -/
def goal? (message : List Char) : Option (List Char) :=
  match ['-', '-', '-'].isPrefixOf? message with
  | some rest =>
      if !rest.head?.any isBlank then none
      else
        match (Text.words isBlank rest).reverse with
        | ['-', '-', '-'] :: artifact :: ['@'] :: earlier =>
            if earlier.isEmpty && (rest.takeWhile isBlank).length < 2 then none
            else some artifact
        | _ => none
  | none => none

/-- A character of a dependency's coordinates. -/
def isCoordinate (character : Char) : Bool :=
  Text.isAsciiLetter character || Text.isAsciiDigit character ||
    character == '_' || character == '.' || character == '-' || character == '+'

/-- The coordinates in a listed dependency: group, artifact, type, a classifier that may
be missing, version and scope. -/
def listed? (fields : List (List Char)) : Option Dependency :=
  match fields.map String.ofList with
  | [group, artifact, type, version, scope] =>
      match Scope.parse scope with
      | .ok scope => some { (Dependency.of group artifact version).withType type with scope }
      | .error _ => none
  | [group, artifact, type, classifier, version, scope] =>
      match Scope.parse scope with
      | .ok scope =>
          some { ((Dependency.of group artifact version).withType type).withClassifier
            classifier with scope }
      | .error _ => none
  | _ => none

/-- The dependency that a message lists: its first word is the coordinates. -/
def dependency? (message : List Char) : Option Dependency :=
  let fields := (message.takeWhile (!isBlank ·)).splitOn ':'
  if fields.all fun field => !field.isEmpty && field.all isCoordinate then
    (listed? fields).map fun dependency =>
      { dependency with
        optional := Text.contains "(optional)".toList (message.dropWhile (!isBlank ·)) }
  else none

/-- What a line of a transcript is. -/
inductive Line where
  | moduleMark (group artifact : String)
  | building (name version : String)
  | goal (artifact : String)
  | dependency (listed : Dependency)
  | other
  deriving DecidableEq, Repr

/-- Reads a line without colour sequences and trailing blanks. -/
def Line.ofText (line : List Char) : Line :=
  match message? line with
  | none => .other
  | some message =>
      match moduleMark? message with
      | some (group, artifact) => .moduleMark group artifact
      | none =>
          match building? message with
          | some (name, version) => .building (String.ofList name) (String.ofList version)
          | none =>
              match goal? message with
              | some artifact => .goal (String.ofList artifact)
              | none =>
                  match dependency? message with
                  | some listed => .dependency listed
                  | none => .other

/-- Adds what a line says.  The first module mark gives group and artifact, and later
marks only fill what is missing.  What is built is not a module if its name ends in a
colon. -/
def add (transcript : Transcript) : Line → Transcript
  | .moduleMark group artifact =>
      if transcript.group.isSome then transcript
      else { transcript with group := some group, artifact := some artifact }
  | .building name version =>
      if name.toList.getLast? == some ':' || transcript.version.isSome then transcript
      else { transcript with version := some version }
  | .goal artifact =>
      if transcript.artifact.isSome then transcript
      else { transcript with artifact := some artifact }
  | .dependency listed =>
      { transcript with dependencies := transcript.dependencies ++ [listed] }
  | .other => transcript

def linesOf (output : String) : List Line :=
  (Text.lines output.toList).map fun line =>
    Line.ofText (Text.trimEnd (withoutColours line))

/-- Reads a tool's output. -/
def ofOutput (output : String) : Transcript :=
  (linesOf output).foldl add {}

end Transcript
end ClassAtlas
