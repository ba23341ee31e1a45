import ClassAtlas.Proofs.Transcript.Item

/-!
# Reading back a transcript

Each item is printed as a line that is recognised as what it is (`ofText_text`).  So reading
the output of a build tool gives what the items state, whatever stands between them and however
they are coloured (`ofOutput_output`): the records in order, the identity of the first module
mark, and the version of what is built first.
-/

namespace ClassAtlas.Transcript

open Text (AtBlank IsSolid)

/-! ## Items are recognised -/

/-- The line that an item is. -/
def Item.line : Item → Line
  | .moduleMark _ _ group artifact => .moduleMark group.text artifact.text
  | .building name version _ => .building name.text version.text
  | .goal _ artifact => .goal artifact.text
  | .dependency listing => .dependency listing.dependency
  | .noise _ => .other

section Recognised

variable (version artifact : Field)

theorem ofText_moduleMark (before after : Nat) (group : Field) :
    Line.ofText (Text.trimEnd (Item.moduleMark before after group artifact).text.toList) =
      .moduleMark group.text artifact.text := by
  have solid : IsSolid ('>' :: List.replicate after '-') := by
    intro character member
    rcases List.mem_cons.1 member with rfl | member
    · rfl
    · rw [List.eq_of_mem_replicate member]
      rfl
  have kept := Text.trimEnd_append_word (List.cons_ne_nil _ _) solid (level ++ ' ' ::
    (List.replicate before '-' ++ '<' :: ' ' :: (group.text.toList ++ ':' ::
      (artifact.text.toList ++ [' '])))) []
  have whole : Text.trimEnd (Item.moduleMark before after group artifact).text.toList =
      (Item.moduleMark before after group artifact).text.toList := by
    rw [toList_moduleMark]
    simpa [Text.trimEnd] using kept
  have marked := moduleMark?_mark before after group.isField artifact.isField
  rw [String.ofList_toList, String.ofList_toList] at marked
  rw [whole, toList_moduleMark]
  apply ofText_of_moduleMark
  cases before with
  | zero => exact marked
  | succ before => exact marked

theorem isTail_countText (count : Option (Nat × Nat)) : IsTail (countText count).toList := by
  cases count with
  | none => exact .nothing
  | some count =>
      obtain ⟨position, total⟩ := count
      have letters : (countText (some (position, total))).toList = ' ' :: '[' ::
          ((toString position).toList ++ '/' :: ((toString total).toList ++ [']'])) := by
        simp only [countText, String.toList_append, List.append_assoc]
        rfl
      rw [letters]
      exact .count (isNumber_toString position) (isNumber_toString total)

theorem ofText_building (name : Name) (count : Option (Nat × Nat)) :
    Line.ofText (Text.trimEnd (Item.building name version count).text.toList) =
      .building name.text version.text := by
  have isTail := isTail_countText count
  have whole : Text.trimEnd (Item.building name version count).text.toList =
      (Item.building name version count).text.toList := by
    have kept := isTail.trimEnd_append version.isField
      (level ++ ' ' :: ("Building".toList ++ ' ' :: (name.text.toList ++ [' '])))
    rw [toList_building]
    simpa using kept
  have built := building?_name name.isName version.isField isTail
  have unmarked : moduleMark? ("Building".toList ++ ' ' :: (name.text.toList ++ ' ' ::
      (version.text.toList ++ (countText count).toList))) = none :=
    moduleMark?_eq_none (show some 'B' ≠ some '<' by decide)
  calc Line.ofText (Text.trimEnd (Item.building name version count).text.toList)
    _ = Line.ofText (level ++ ' ' :: ("Building".toList ++ ' ' :: (name.text.toList ++ ' ' ::
          (version.text.toList ++ (countText count).toList)))) := by
        rw [whole, toList_building]
    _ = .building (String.ofList name.text.toList) (String.ofList version.text.toList) :=
        ofText_of_building unmarked built
    _ = .building name.text version.text := by
        rw [String.ofList_toList, String.ofList_toList]

theorem ofText_goal (plugin : Phrase) :
    Line.ofText (Text.trimEnd (Item.goal plugin artifact).text.toList) = .goal artifact.text := by
  have whole : Text.trimEnd (Item.goal plugin artifact).text.toList =
      (Item.goal plugin artifact).text.toList := by
    have dashes : "---".toList ≠ [] := by decide
    have kept := Text.trimEnd_append_word dashes (by decide)
      (level ++ ' ' :: ("---".toList ++ ' ' :: (plugin.text.toList ++ ' ' :: '@' :: ' ' ::
        (artifact.text.toList ++ [' '])))) []
    rw [toList_goal, goalText]
    simpa [Text.trimEnd] using kept
  have word : firstWord ("---".toList ++ goalText plugin.text.toList artifact.text.toList) =
      "---".toList :=
    firstWord_append (by decide) (Text.atBlank_cons rfl _)
  have unmarked : moduleMark? ("---".toList ++ goalText plugin.text.toList
      artifact.text.toList) = none :=
    moduleMark?_eq_none (show some ' ' ≠ some '<' by decide)
  have unbuilt : building? ("---".toList ++ goalText plugin.text.toList
      artifact.text.toList) = none := by
    apply building?_eq_none
    rw [word]
    decide
  calc Line.ofText (Text.trimEnd (Item.goal plugin artifact).text.toList)
    _ = Line.ofText (level ++ ' ' :: ("---".toList ++
          goalText plugin.text.toList artifact.text.toList)) := by
        rw [whole, toList_goal]
    _ = .goal (String.ofList artifact.text.toList) :=
        ofText_of_goal unmarked unbuilt (goal?_goal plugin.text.toList artifact.isField)
    _ = .goal artifact.text := by
        rw [String.ofList_toList]

end Recognised

/-! ## Listed dependencies -/

namespace Listing

variable (listing : Listing)

theorem parse_name (scope : Scope) : Scope.parse scope.name = .ok scope := by
  cases scope <;> decide

theorem not_isBlankString_field (field : Field) : Text.isBlankString field.text = false := by
  obtain ⟨first, rest, begins, plain⟩ := field.isField.exists_cons
  rw [Text.isBlankString, begins, Text.isBlankText, List.all_cons,
    not_isBlank_of_isCoordinate plain]
  rfl

theorem orWhenBlank_field (default : String) (field : Field) :
    orWhenBlank default field.text = field.text := by
  rw [orWhenBlank, not_isBlankString_field]
  rfl

theorem listed?_letters :
    listed? listing.letters = some { listing.dependency with optional := false } := by
  have texts : listing.letters.map String.ofList = listing.fields := by
    simp [letters, List.map_map, Function.comp_def]
  rw [listed?, texts, fields]
  cases chosen : listing.classifier with
  | none => simp [parse_name, Dependency.of, Dependency.withType, orWhenBlank_field, dependency,
      chosen]
  | some classifier => simp [parse_name, Dependency.of, Dependency.withType,
      Dependency.withClassifier, orWhenBlank_field, not_isBlankString_field, dependency, chosen]

theorem atBlank_tail : AtBlank listing.tail.toList := by
  rw [tail, String.toList_append]
  cases listing.optional with
  | true => exact Text.atBlank_cons rfl _
  | false =>
      cases listing.remark with
      | none =>
          intro character member
          cases member
      | some remark =>
          simp only [Option.map_some, Option.getD_some, String.toList_append]
          exact Text.atBlank_cons rfl _

/-- Nothing but the mark of an optional dependency contains that mark. -/
theorem contains_trimEnd_tail :
    Text.contains "(optional)".toList (Text.trimEnd listing.tail.toList) = listing.optional := by
  have nonempty : "(optional)".toList ≠ [] := by decide
  cases optional : listing.optional with
  | true =>
      have kept := Text.trimEnd_append_word nonempty (by decide) [' ']
        ((listing.remark.map fun remark => " -- module " ++ remark.text).getD "").toList
      have letters : listing.tail.toList = [' '] ++ ("(optional)".toList ++
          ((listing.remark.map fun remark => " -- module " ++ remark.text).getD "").toList) := by
        rw [tail, optional, String.toList_append]
        rfl
      rw [letters, kept, Text.contains_iff nonempty]
      exact List.infix_append' _ _ _
  | false =>
      rw [Bool.eq_false_iff]
      intro found
      have occurs := ((Text.contains_iff nonempty).1 found).trans
        (Text.trimEnd_isPrefix listing.tail.toList).isInfix
      rw [tail, optional, String.toList_append] at occurs
      cases remarked : listing.remark with
      | none =>
          rw [remarked] at occurs
          exact absurd occurs (by decide)
      | some remark =>
          rw [remarked, Option.map_some, Option.getD_some, String.toList_append] at occurs
          apply remark.notOptional
          have absent : '(' ∉ " -- module ".toList := by decide
          exact Text.infix_of_infix_append absent occurs

end Listing

theorem ofText_dependency (listing : Listing) :
    Line.ofText (Text.trimEnd (Item.dependency listing).text.toList) =
      .dependency listing.dependency := by
  have solid := isSolid_coordinates listing.isField_letters
  obtain ⟨first, rest, begins, plain⟩ := listing.group.isField.exists_cons
  have leads : coordinates listing.letters = first :: (coordinates listing.letters).tail := by
    rw [Listing.letters, Listing.fields]
    simp [coordinates, List.intercalate, begins]
  have nonempty : coordinates listing.letters ≠ [] := by
    rw [leads]
    exact List.cons_ne_nil _ _
  have kept := Text.trimEnd_append_word nonempty solid (level ++ ' ' :: "   ".toList)
    listing.tail.toList
  have margin : Text.trimStart ("   ".toList ++ (coordinates listing.letters ++
      Text.trimEnd listing.tail.toList)) =
        coordinates listing.letters ++ Text.trimEnd listing.tail.toList := by
    rw [leads]
    exact Text.trimStart_cons_solid (not_isBlank_of_isCoordinate plain) _
  calc Line.ofText (Text.trimEnd (Item.dependency listing).text.toList)
    _ = Line.ofText (level ++ ' ' :: ("   ".toList ++ (coordinates listing.letters ++
          Text.trimEnd listing.tail.toList))) := by
        rw [List.append_assoc, List.append_assoc] at kept
        rw [toList_dependency]
        exact congrArg Line.ofText kept
    _ = .dependency { { listing.dependency with optional := false } with
          optional := Text.contains "(optional)".toList (Text.trimEnd listing.tail.toList) } :=
        ofText_of_coordinates listing.isField_letters listing.atBlank_tail.trimEnd
          listing.listed?_letters margin
    _ = .dependency listing.dependency := by
        rw [listing.contains_trimEnd_tail]
        rfl

/-! ## The whole transcript -/

theorem ofText_text (item : Item) :
    Line.ofText (Text.trimEnd item.text.toList) = item.line := by
  cases item with
  | moduleMark before after group artifact => exact ofText_moduleMark artifact before after group
  | building name version count => exact ofText_building version name count
  | goal plugin artifact => exact ofText_goal artifact plugin
  | dependency listing => exact ofText_dependency listing
  | noise text =>
      apply ofText_of_not_prefix
      intro begins
      exact text.noLevel (begins.trans (Text.trimEnd_isPrefix _))

namespace Line

/-- The group and the artifact that a line gives as a module mark. -/
def marked? : Line → Option (String × String)
  | .moduleMark group artifact => some (group, artifact)
  | _ => none

/-- The artifact that a line gives as a goal. -/
def goalArtifact? : Line → Option String
  | .goal artifact => some artifact
  | _ => none

/-- The version that a line gives for a module. -/
def builtVersion? : Line → Option String
  | .building name version => if name.toList.getLast? == some ':' then none else some version
  | _ => none

/-- The dependency that a line lists. -/
def dependency? : Line → Option Dependency
  | .dependency listed => some listed
  | _ => none

end Line

/-- What lines add to what is known.  A module mark counts where no group is known yet. -/
theorem foldl_add (lines : List Line) (known : Transcript) :
    lines.foldl add known =
      { group := known.group.or ((lines.findSome? Line.marked?).map Prod.fst)
        artifact :=
          if known.group.isSome then known.artifact.or (lines.findSome? Line.goalArtifact?)
          else ((lines.findSome? Line.marked?).map Prod.snd).or
            (known.artifact.or (lines.findSome? Line.goalArtifact?))
        version := known.version.or (lines.findSome? Line.builtVersion?)
        dependencies := known.dependencies ++ lines.filterMap Line.dependency? } := by
  induction lines generalizing known with
  | nil =>
      obtain ⟨group, artifact, version, dependencies⟩ := known
      simp
  | cons line lines ih =>
      rw [List.foldl_cons, ih]
      obtain ⟨group, artifact, version, dependencies⟩ := known
      simp only [List.findSome?_cons, List.filterMap_cons]
      cases line with
      | moduleMark markedGroup markedArtifact =>
          cases group <;> simp [add, Line.marked?, Line.goalArtifact?, Line.builtVersion?,
            Line.dependency?]
      | building name builtVersion =>
          by_cases colon : name.toList.getLast? = some ':' <;> cases version <;>
            simp [add, Line.marked?, Line.goalArtifact?, Line.builtVersion?, Line.dependency?, colon]
      | goal goalArtifact =>
          cases artifact <;> simp [add, Line.marked?, Line.goalArtifact?, Line.builtVersion?,
            Line.dependency?]
      | dependency listed =>
          simp [add, Line.marked?, Line.goalArtifact?, Line.builtVersion?, Line.dependency?]
      | other =>
          simp [add, Line.marked?, Line.goalArtifact?, Line.builtVersion?, Line.dependency?]

theorem foldl_add_empty (lines : List Line) :
    lines.foldl add {} =
      { group := (lines.findSome? Line.marked?).map Prod.fst
        artifact := ((lines.findSome? Line.marked?).map Prod.snd).or
          (lines.findSome? Line.goalArtifact?)
        version := lines.findSome? Line.builtVersion?
        dependencies := lines.filterMap Line.dependency? } := by
  rw [foldl_add]
  simp

/-- A name of what is built does not end in a colon. -/
theorem builtVersion?_line (item : Item) : item.line.builtVersion? = item.builtVersion? := by
  cases item with
  | building name version count =>
      obtain ⟨front, last, ends, -, other⟩ := name.isName.ends
      have noColon : (name.text.toList.getLast? == some ':') = false := by
        rw [ends, List.getLast?_concat]
        simpa using other
      simp [Item.line, Line.builtVersion?, Item.builtVersion?, noColon]
  | moduleMark before after group artifact => rfl
  | goal plugin artifact => rfl
  | dependency listing => rfl
  | noise text => rfl

theorem foldl_add_items (items : List Item) :
    (items.map Item.line).foldl add {} = stated items := by
  have marked : Line.marked? ∘ Item.line = Item.marked? := by
    funext item
    cases item <;> rfl
  have goals : Line.goalArtifact? ∘ Item.line = Item.goalArtifact? := by
    funext item
    cases item <;> rfl
  have built : Line.builtVersion? ∘ Item.line = Item.builtVersion? := funext builtVersion?_line
  have listed : Line.dependency? ∘ Item.line = Item.dependency? := by
    funext item
    cases item <;> rfl
  rw [foldl_add_empty, List.findSome?_map, List.findSome?_map, List.findSome?_map,
    List.filterMap_map, marked, goals, built, listed]
  rfl

theorem ofRaw_body (line : Printed) : Line.ofRaw line.body = line.item.line := by
  have whole : Line.ofRaw line.body = Line.ofRaw line.painted := by
    rw [Printed.body]
    cases line.returns with
    | true => exact ofRaw_append_return line.painted
    | false => exact congrArg Line.ofRaw (List.append_nil line.painted)
  rw [whole, ofRaw_of_painted line.paint line.item.isClean.escape, ofText_text]

/-- Reading what is printed gives what the items state: however the lines are coloured and
ended, no line is taken for one of another kind, and each gives what was written in it. -/
theorem ofOutput_output (lines : List Printed) :
    ofOutput (output lines) = stated (lines.map Printed.item) := by
  have single : ∀ body ∈ lines.map Printed.body, '\n' ∉ body := by
    intro body member
    obtain ⟨line, -, rfl⟩ := List.mem_map.1 member
    have painted := line.paint.newline_not_mem line.item.isClean.newline
    rw [Printed.body, List.mem_append, not_or]
    refine ⟨painted, ?_⟩
    cases line.returns <;> decide
  calc ofOutput (output lines)
    _ = (linesOf (String.ofList ((lines.map Printed.body).flatMap (· ++ ['\n'])))).foldl add {} := by
        rw [ofOutput, output, List.flatMap_map]
    _ = ((lines.map Printed.body).map Line.ofRaw).foldl add {} := by
        rw [linesOf_flatMap single]
    _ = ((lines.map Printed.item).map Item.line).foldl add {} := by
        rw [List.map_map, List.map_map]
        exact congrArg (List.foldl add {}) (List.map_congr_left fun line _ => ofRaw_body line)
    _ = stated (lines.map Printed.item) := foldl_add_items _

/-! ### A transcript with lines of all kinds -/

namespace Sample

def bold : Colour := ⟨['1', ';', '3', '4'], 'm', List.all_eq_true.1 (by decide), rfl⟩

def plain : Colour := ⟨[], 'm', List.forall_mem_nil _, rfl⟩

/-- An item whose first characters are printed in bold. -/
def highlighted (item : Item) (count : Nat) (returns : Bool) : Printed where
  item
  painted := bold.text ++ (item.text.toList.take count ++
    (plain.text ++ item.text.toList.drop count))
  paint := by
    have rest := (Painted.refl (item.text.toList.drop count)).colour plain
    have whole := rest.append_left (item.text.toList.take count)
    rw [List.take_append_drop] at whole
    exact whole.colour bold
  returns

def name : Name where
  text := "Web: front end"
  isName :=
    { begins := ⟨'W', "eb: front end".toList, rfl, rfl⟩
      ends := ⟨"Web: front en".toList, 'd', rfl, rfl, by decide⟩ }
  isClean := by decide

def listing : Listing where
  group := ⟨"org.slf4j", by decide⟩
  artifact := ⟨"slf4j-api", by decide⟩
  type := ⟨"jar", by decide⟩
  classifier := some ⟨"sources", by decide⟩
  version := ⟨"2.0.9", by decide⟩
  scope := .test
  optional := true
  remark := some { text := "org.slf4j [auto]", isClean := by decide, notOptional := by decide }

def lines : List Printed :=
  [highlighted (.noise { text := "Picked up options", isClean := by decide, noLevel := by decide })
      4 true,
    highlighted (.goal ⟨"help:3.4:system", by decide⟩ ⟨"parent", by decide⟩) 6 false,
    highlighted (.moduleMark 5 7 ⟨"com.example", by decide⟩ ⟨"web", by decide⟩) 6 true,
    highlighted (.building name ⟨"1.2", by decide⟩ (some (2, 5))) 6 false,
    highlighted (.dependency listing) 12 true]

end Sample

theorem ofOutput_output_sample :
    ofOutput (output Sample.lines) =
      { group := some "com.example"
        artifact := some "web"
        version := some "1.2"
        dependencies := [Sample.listing.dependency] } := by
  rw [ofOutput_output]
  rfl

end ClassAtlas.Transcript
