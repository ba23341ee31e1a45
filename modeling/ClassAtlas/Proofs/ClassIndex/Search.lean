import ClassAtlas.Proofs.ClassIndex.Matching
import ClassAtlas.Proofs.ClassIndex.Views
import ClassAtlas.Report.Record

/-!
# What a search finds

A search lists the classes of an index whose simple name its kind asks for, by simple name and
then by package, each of them once, and cuts the list at the limit (`search?_eq_listing`).  The
other kinds of searches are wildcard searches, written differently (`search?_asWildcard`).
-/

namespace ClassAtlas

namespace ClassName

/-- The order of hits: by simple name, and by package among classes of the same name. -/
def Before (left right : ClassName) : Prop :=
  left.simple < right.simple ∨ (left.simple = right.simple ∧ left.package < right.package)

/-- The list holds exactly the classes that are wanted, each of them once, in the order of
hits. -/
structure IsListing (wanted : ClassName → Prop) (classes : List ClassName) : Prop where
  sorted : classes.Pairwise Before
  mem_iff : ∀ name, name ∈ classes ↔ wanted name

end ClassName

/-- The same search as one for a wildcard, when there is no wildcard in the pattern. -/
def SearchKind.asWildcard (kind : SearchKind) (pattern : String) : String :=
  match kind with
  | .exact | .wildcard => pattern
  | .beginning => pattern ++ "*"
  | .ending => "*" ++ pattern
  | .containing => "*" ++ pattern ++ "*"

namespace ClassIndex

variable {index : ClassIndex} {kind : SearchKind} {pattern : String} {name : ClassName}

/-! ## The listing -/

/-- What is wanted are the classes of the index with a simple name that the search wants. -/
theorem mem_wanted :
    name ∈ index.wanted kind pattern ↔
      index.contains name = true ∧ isWanted kind pattern name.simple = true := by
  obtain ⟨package, simple⟩ := name
  rw [wanted, List.mem_flatMap, contains, Option.any_eq_true]
  constructor
  · rintro ⟨⟨listed, packages⟩, member, shown⟩
    obtain ⟨known, isWanted⟩ := List.mem_filter.1 member
    rw [Std.TreeMap.mem_toList_iff_getElem?_eq_some] at known
    obtain ⟨other, inPackages, same⟩ := List.mem_map.1 shown
    cases same
    refine ⟨⟨packages, known, ?_⟩, isWanted⟩
    rw [← Std.TreeSet.mem_iff_contains]
    exact Std.TreeSet.mem_toList.1 inPackages
  · rintro ⟨⟨packages, known, inPackages⟩, isWanted⟩
    refine ⟨(simple, packages), List.mem_filter.2 ⟨?_, isWanted⟩, List.mem_map.2 ⟨package, ?_, rfl⟩⟩
    · exact Std.TreeMap.mem_toList_iff_getElem?_eq_some.2 known
    · exact Std.TreeSet.mem_toList.2 (Std.TreeSet.mem_iff_contains.2 inPackages)

/-- What is wanted is in the order of hits, without repetitions. -/
theorem pairwise_wanted (index : ClassIndex) (kind : SearchKind) (pattern : String) :
    (index.wanted kind pattern).Pairwise ClassName.Before := by
  rw [wanted, List.pairwise_flatMap]
  constructor
  · intro entry _
    rw [List.pairwise_map]
    apply Std.TreeSet.ordered_toList.imp
    intro left right less
    exact .inr ⟨rfl, compare_lt_iff_lt.1 less⟩
  · apply (Std.TreeMap.ordered_keys_toList.filter _).imp
    intro first second less left inFirst right inSecond
    obtain ⟨leftPackage, -, rfl⟩ := List.mem_map.1 inFirst
    obtain ⟨rightPackage, -, rfl⟩ := List.mem_map.1 inSecond
    exact .inl (compare_lt_iff_lt.1 less)

/-! ## Other kinds as wildcards -/

/-- Without wildcards a pattern stands for itself. -/
theorem map_wildcardPiece {text : List Char} (noStar : '*' ∉ text) (noQuestion : '?' ∉ text) :
    text.map SearchKind.wildcardPiece = text.map .literal := by
  apply List.map_congr_left
  intro character member
  apply SearchKind.wildcardPiece_of_ne
  · rintro rfl
    exact noStar member
  · rintro rfl
    exact noQuestion member

/-- A search and the wildcard search that says the same have the same pieces. -/
theorem pieces_asWildcard (kind : SearchKind) (noStar : '*' ∉ pattern.toList)
    (noQuestion : '?' ∉ pattern.toList) :
    SearchKind.wildcard.pieces (kind.asWildcard pattern).toList = kind.pieces pattern.toList := by
  have literal := map_wildcardPiece noStar noQuestion
  cases kind with
  | exact => exact literal
  | beginning => simp [SearchKind.asWildcard, SearchKind.pieces, literal]; rfl
  | ending => simp [SearchKind.asWildcard, SearchKind.pieces, literal]; rfl
  | containing => simp [SearchKind.asWildcard, SearchKind.pieces, literal]; rfl
  | wildcard => rfl

/-- A search finds what the wildcard search finds that says the same. -/
theorem search?_asWildcard (index : ClassIndex) (kind : SearchKind) (limit : Nat)
    (noStar : '*' ∉ pattern.toList) (noQuestion : '?' ∉ pattern.toList) :
    index.search? .wildcard (kind.asWildcard pattern) limit = index.search? kind pattern limit := by
  have same := pieces_asWildcard kind noStar noQuestion
  have wantedAlike : isWanted .wildcard (kind.asWildcard pattern) = isWanted kind pattern := by
    funext simple
    rw [isWanted, isWanted, same]
  rw [search?, search?, isTooLarge, isTooLarge, same, wanted, wanted, wantedAlike]

/-! ## Searches -/

theorem eq_of_search? {limit : Nat} {hits : List Hit}
    (found : index.search? kind pattern limit = some hits) :
    hits = ((index.wanted kind pattern).take limit).map index.hit := by
  rw [search?] at found
  split at found
  · cases found
  · exact (Option.some.inj found).symm

/-- A search that can be made finds the first classes of the listing of what its kind wants, as
many as the limit says.  A hit is printed with the qualified name of the class and the recorded
owner of its package.  Where there is no wildcard in the pattern, the search finds what the
wildcard search finds that says the same. -/
theorem search?_eq_listing {limit : Nat} {hits : List Hit}
    (plain : ∀ name, index.contains name = true → '\n' ∉ name.simple.toList)
    (found : index.search? kind pattern limit = some hits) :
    (∃ classes,
      ClassName.IsListing (fun name => index.contains name = true ∧
        kind.Wants pattern.toList name.simple.toList) classes ∧
      hits.map Hit.name = classes.take limit) ∧
    (∀ hit ∈ hits, hit.record = .table [
      ("class_name", .text (hit.name.package ++ "." ++ hit.name.simple)),
      ("simple_name", .text hit.name.simple),
      ("package", .text hit.name.package),
      ("dependency", .ofOption .text (index.ownerOf? hit.name.package))]) ∧
    ('*' ∉ pattern.toList → '?' ∉ pattern.toList →
      index.search? .wildcard (kind.asWildcard pattern) limit = some hits) := by
  refine ⟨⟨index.wanted kind pattern, ⟨pairwise_wanted index kind pattern, ?_⟩, ?_⟩, ?_, ?_⟩
  · intro name
    rw [mem_wanted]
    apply and_congr_right
    intro held
    exact kind.isMatch_pieces_iff (plain name held)
  · rw [eq_of_search? found, List.map_map]
    exact List.map_id _
  · intro hit member
    rw [eq_of_search? found] at member
    obtain ⟨name, -, rfl⟩ := List.mem_map.1 member
    rfl
  · intro noStar noQuestion
    rw [search?_asWildcard index kind limit noStar noQuestion, found]

/-- A search for a prefix with a character that means something in other patterns: of the
two classes with such a name the limit keeps the one in the smaller package. -/
theorem search?_eq_listing_prefix :
    let index := (((({} : ClassIndex).insert ⟨"org.z", "Ou$ter"⟩).insert ⟨"org.b", "Ou$ter"⟩).insert
      ⟨"org.a", "Outer"⟩).claim "org.b" "lib"
    let hits : List Hit := [⟨⟨"org.b", "Ou$ter"⟩, some "lib"⟩]
    (∀ name, index.contains name = true → '\n' ∉ name.simple.toList) ∧
      index.search? .beginning "Ou$" 1 = some hits ∧
      (∃ classes,
        ClassName.IsListing (fun name => index.contains name = true ∧
          "Ou$".toList <+: name.simple.toList) classes ∧
        hits.map Hit.name = classes.take 1) ∧
      index.search? .wildcard "Ou$*" 1 = some hits := by
  intro index hits
  have plain : ∀ name, index.contains name = true → '\n' ∉ name.simple.toList := by
    intro name held
    simp only [index, contains_claim, contains_insert, contains_empty] at held
    rcases held with rfl | rfl | rfl | held
    · decide
    · decide
    · decide
    · cases held
  have found : index.search? .beginning "Ou$" 1 = some hits := by decide +kernel
  have listing := search?_eq_listing plain found
  exact ⟨plain, found, listing.1, listing.2.2 (by decide) (by decide)⟩

end ClassIndex
end ClassAtlas
