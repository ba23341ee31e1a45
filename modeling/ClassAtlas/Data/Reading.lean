import ClassAtlas.Data
import ClassAtlas.Dependency

/-!
# Reading data

Typed values out of data trees.  A record is read from a table, whose further keys
are ignored, or from a list that gives its fields in order.  A field may have a
default; a list may stop before fields that have one.
-/

namespace ClassAtlas

namespace Data

def text? : Data → Option String
  | .text value => some value
  | _ => none

def boolean? : Data → Option Bool
  | .boolean value => some value
  | _ => none

/-- A natural number of at most 64 bits. -/
def natural? : Data → Option Nat
  | .integer value => if 0 ≤ value && value < UInt64.size then some value.toNat else none
  | _ => none

/-- A number, as a double. -/
def decimal? : Data → Option Float
  | .decimal value => some value
  | .integer value => some (Float.ofInt value)
  | _ => none

/-- A value that `null` leaves out. -/
def optional {α : Type} (read : Data → Option α) : Data → Option (Option α)
  | .null => some none
  | data => (read data).map some

def list? {α : Type} (read : Data → Option α) : Data → Option (List α)
  | .list values => values.mapM read
  | _ => none

/-- A choice among named values: its name, or a table of the name alone. -/
def choice? {α : Type} (named : String → Option α) : Data → Option α
  | .text name => named name
  | .table [(name, .null)] => named name
  | _ => none

structure Fields where
  find : String → Option Data
  /-- The fields were given in order, without their names. -/
  inOrder : Bool

/-- The fields of a record with these names.  Whether a list may go on after the last
field depends on the format. -/
def fields? (names : List String) (mayGoOn : Bool) : Data → Option Fields
  | .table entries => some ⟨fun name => entries.lookup name, false⟩
  | .list values =>
      if values.length ≤ names.length || mayGoOn then
        some ⟨fun name => (names.zip values).lookup name, true⟩
      else none
  | _ => none

namespace Fields

/-- A field that has to be there. -/
def required {α : Type} (fields : Fields) (name : String) (read : Data → Option α) :
    Option α :=
  (fields.find name).bind read

/-- A field with a default. -/
def withDefault {α : Type} (fields : Fields) (name : String) (default : α)
    (read : Data → Option α) : Option α :=
  match fields.find name with
  | some data => read data
  | none => some default

/-- A field that a table may leave out, and a list may not. -/
def ifPresent {α : Type} (fields : Fields) (name : String) (read : Data → Option α) :
    Option (Option α) :=
  match fields.find name with
  | some data => optional read data
  | none => if fields.inOrder then none else some none

end Fields

end Data

def Path.ofData? (data : Data) : Option Path :=
  data.text?.map Path.mk

def Path.record (path : Path) : Data :=
  .text path.text

def Scope.ofData? : Data → Option Scope :=
  Data.choice? Scope.ofName?

def Dependency.ofData? (data : Data) : Option Dependency := do
  let fields ← data.fields? ["group_id", "artifact_id", "version", "classifier", "type",
    "scope", "optional", "jar_path", "system_path"] false
  return {
    group := ← fields.required "group_id" Data.text?
    artifact := ← fields.required "artifact_id" Data.text?
    version := ← fields.required "version" Data.text?
    classifier := ← fields.withDefault "classifier" none (Data.optional Data.text?)
    type := ← fields.required "type" Data.text?
    scope := ← fields.required "scope" Scope.ofData?
    optional := ← fields.withDefault "optional" false Data.boolean?
    archive := ← fields.withDefault "jar_path" none (Data.optional Path.ofData?)
    systemPath := ← fields.withDefault "system_path" none (Data.optional Data.text?) }

end ClassAtlas
