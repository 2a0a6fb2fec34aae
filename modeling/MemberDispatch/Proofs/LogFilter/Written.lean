import Mathlib.Data.List.TakeWhile
import MemberDispatch.Proofs.LogFilter.Order

/-!
# Filters that are written and read again

A directive that was read has a target that starts like one and has neither an
equals sign nor a comma.  Its text is therefore one piece, which is read as the
same directive, and so is the text of a whole filter.  No such text is changed
where it is configured as a level.
-/

set_option autoImplicit false

namespace MemberDispatch

variable {α β : Type}

theorem mapM_eq_some_iff {step : α → Option β} {items : List α} {results : List β} :
    items.mapM step = some results ↔
      List.Forall₂ (fun item result => step item = some result) items results := by
  induction items generalizing results with
  | nil => simp [eq_comm]
  | cons item items ih =>
      simp only [List.mapM_cons, List.forall₂_cons_left_iff, Option.bind_eq_bind,
        Option.bind_eq_some_iff, ih, Option.pure_def, Option.some.injEq]
      refine exists_congr fun result => ?_
      simp only [eq_comm, exists_and_left]

namespace Directive

variable {mark : Char} {piece : List Char} {source : String} {directive : Directive}
  {directives : List Directive}

/-! ## Pieces -/

theorem splitAt_eq_splitOn (mark : Char) (text : List Char) :
    splitAt mark text = text.splitOn mark := by
  induction text with
  | nil => simp [splitAt]
  | cons head rest ih =>
      rw [splitAt, ih, List.splitOn_cons_eq_if_modifyHead]
      by_cases same : head = mark
      · simp [same]
      · cases pieces : rest.splitOn mark with
        | nil => exact absurd pieces (List.splitOn_ne_nil mark rest)
        | cons piece pieces => simp [same]

theorem mark_notMem_of_mem_splitAt {text : List Char} (member : piece ∈ splitAt mark text) :
    mark ∉ piece := by
  induction text generalizing piece with
  | nil => simp_all [splitAt]
  | cons head rest ih =>
      rw [splitAt] at member
      split at member
      · rcases List.mem_cons.mp member with rfl | later
        · exact List.not_mem_nil
        · exact ih later
      · rename_i differs
        split at member
        · rename_i empty
          exact absurd ((splitAt_eq_splitOn mark rest).symm.trans empty) (List.splitOn_ne_nil mark rest)
        · rename_i first others pieces
          rw [pieces] at ih
          rcases List.mem_cons.mp member with rfl | later
          · have inFirst := ih List.mem_cons_self
            rw [List.mem_cons, not_or]
            exact ⟨fun same => differs same.symm, inFirst⟩
          · exact ih (List.mem_cons_of_mem first later)

/-- The pieces of a list of directives, without the empty ones. -/
def pieces (source : String) : List (List Char) :=
  (splitAt ',' source.toList).filter fun piece => !piece.isEmpty

theorem mem_pieces : piece ∈ pieces source ↔ piece ∈ splitAt ',' source.toList ∧ piece ≠ [] := by
  simp [pieces]

theorem listOf?_eq (source : String) : listOf? source = (pieces source).mapM ofPiece? :=
  rfl

theorem pieces_append (before after : String) :
    pieces (before ++ "," ++ after) = pieces before ++ pieces after := by
  have chars : (before ++ "," ++ after).toList = before.toList ++ ',' :: after.toList := by
    simp
  rw [pieces, chars, splitAt_eq_splitOn, List.splitOn_append_cons_self, List.filter_append,
    ← splitAt_eq_splitOn, ← splitAt_eq_splitOn]
  rfl

/-! ## Directives that were read -/

/-- What stands before the equals sign of a piece. -/
structure IsTarget (name : List Char) : Prop where
  starts : ∃ first rest, name = first :: rest ∧ startsTarget first = true
  withoutEquals : '=' ∉ name
  withoutComma : ',' ∉ name

def Readable (directive : Directive) : Prop :=
  ∀ target, directive.target = some target → IsTarget target.toList

theorem readable_of_ofPiece? (oneOf : ',' ∉ piece) (read : ofPiece? piece = some directive) :
    directive.Readable := by
  cases piece with
  | nil => cases read
  | cons first rest =>
      simp only [ofPiece?, List.head?_cons] at read
      split at read
      · rename_i starts
        split at read
        · rename_i whole
          have withoutEquals : '=' ∉ first :: rest := by
            intro inside
            simpa using List.dropWhile_eq_nil_iff.mp whole '=' inside
          cases read
          intro target named
          rw [ofWord] at named
          split at named
          · cases named
          · cases named
            rw [String.toList_ofList]
            exact ⟨⟨first, rest, rfl, starts⟩, withoutEquals, oneOf⟩
        · rename_i sign after _
          obtain ⟨verbosity, -, rfl⟩ := Option.map_eq_some_iff.mp read
          intro target named
          cases named
          -- No target starts with the sign, so that something stands before it.
          have differs : first ≠ '=' := by
            intro same
            rw [same] at starts
            exact absurd starts (by decide)
          rw [String.toList_ofList]
          refine ⟨⟨first, rest.takeWhile (· ≠ '='), by simp [differs], starts⟩, ?_, ?_⟩
          · intro inside
            simpa using List.mem_takeWhile_imp inside
          · exact fun inside => oneOf ((List.takeWhile_prefix _).subset inside)
      · cases read

theorem readable_of_listOf? (read : listOf? source = some directives) :
    ∀ directive ∈ directives, directive.Readable := by
  have each : List.Forall₂ (fun piece directive => ofPiece? piece = some directive)
      (pieces source) directives := mapM_eq_some_iff.mp read
  intro directive member
  obtain ⟨index, bound, rfl⟩ := List.getElem_of_mem member
  have place : index < (pieces source).length := each.length_eq ▸ bound
  have inside : (pieces source)[index] ∈ pieces source := List.getElem_mem place
  exact readable_of_ofPiece? (mark_notMem_of_mem_splitAt (mem_pieces.mp inside).1)
    (each.get place bound)

/-! ## Directives that are written -/

theorem toList_text (target : String) (verbosity : Verbosity) :
    (text ⟨some target, verbosity⟩).toList = target.toList ++ '=' :: verbosity.name.toList := by
  simp [text]

theorem ofPiece?_text (readable : directive.Readable) :
    ofPiece? directive.text.toList = some directive := by
  obtain ⟨target, verbosity⟩ := directive
  cases target with
  | none => cases verbosity <;> decide
  | some target =>
      obtain ⟨⟨first, rest, chars, starts⟩, withoutEquals, -⟩ := readable target rfl
      have before : ∀ c ∈ target.toList, decide (c ≠ '=') = true := by
        intro c inside
        simpa using fun same : c = '=' => withoutEquals (same ▸ inside)
      have named : verbosityAfter? verbosity.name = some verbosity := by
        cases verbosity <;> decide
      have head : (target.toList ++ '=' :: verbosity.name.toList).head? = some first := by
        simp [chars]
      rw [toList_text, ofPiece?, head, List.takeWhile_append_of_pos before,
        List.dropWhile_append_of_pos before]
      simp [starts, named]

theorem comma_notMem_text (readable : directive.Readable) : ',' ∉ directive.text.toList := by
  obtain ⟨target, verbosity⟩ := directive
  have withoutComma : ',' ∉ verbosity.name.toList := by
    cases verbosity <;> decide
  cases target with
  | none => exact withoutComma
  | some target =>
      rw [toList_text]
      simp [(readable target rfl).withoutComma, withoutComma]

theorem text_ne_nil (readable : directive.Readable) : directive.text.toList ≠ [] := by
  have read := ofPiece?_text readable
  intro empty
  rw [empty] at read
  cases read

/-! ## Lists of directives -/

theorem listOf?_append (before after : String) :
    listOf? (before ++ "," ++ after) =
      (listOf? before).bind fun first => (listOf? after).map fun second => first ++ second := by
  simp only [listOf?_eq, pieces_append, List.mapM_append]
  cases (pieces before).mapM ofPiece? <;> cases (pieces after).mapM ofPiece? <;> rfl

theorem toList_intercalate_text (directives : List Directive) :
    (",".intercalate (directives.map text)).toList =
      [','].intercalate (directives.map fun directive => directive.text.toList) := by
  rw [String.toList_intercalate, List.map_map]
  rfl

theorem pieces_intercalate_text (nonempty : directives ≠ [])
    (readable : ∀ directive ∈ directives, directive.Readable) :
    pieces (",".intercalate (directives.map text)) =
      directives.map fun directive => directive.text.toList := by
  have withoutComma : ∀ piece ∈ directives.map fun directive => directive.text.toList,
      ',' ∉ piece := by
    intro piece member
    obtain ⟨directive, inside, rfl⟩ := List.mem_map.mp member
    exact comma_notMem_text (readable directive inside)
  rw [pieces, toList_intercalate_text, splitAt_eq_splitOn,
    List.splitOn_intercalate ',' withoutComma (by simpa using nonempty), List.filter_eq_self]
  intro piece member
  obtain ⟨directive, inside, rfl⟩ := List.mem_map.mp member
  simpa using text_ne_nil (readable directive inside)

theorem listOf?_intercalate_text (nonempty : directives ≠ [])
    (readable : ∀ directive ∈ directives, directive.Readable) :
    listOf? (",".intercalate (directives.map text)) = some directives := by
  rw [listOf?_eq, pieces_intercalate_text nonempty readable, mapM_eq_some_iff,
    List.forall₂_map_left_iff, List.forall₂_same]
  exact fun directive member => ofPiece?_text (readable directive member)

end Directive

/-! ## Filters -/

namespace LogFilter

open Directive

variable {filter : LogFilter} {directives : List Directive} {source : String}

/-- What all filters have that were read. -/
structure WellFormed (filter : LogFilter) : Prop where
  nonempty : filter.directives ≠ []
  ordered : Ordered filter.directives
  readable : ∀ directive ∈ filter.directives, directive.Readable

theorem wellFormed_single (verbosity : Verbosity) : WellFormed ⟨[⟨none, verbosity⟩]⟩ where
  nonempty := List.cons_ne_nil _ _
  ordered := List.pairwise_singleton _ _
  readable directive member := by
    rw [List.mem_singleton.mp member]
    intro target named
    cases named

theorem wellFormed_ofDirectives (readable : ∀ directive ∈ directives, directive.Readable) :
    WellFormed (ofDirectives directives) := by
  cases directives with
  | nil => exact wellFormed_single .error
  | cons head rest =>
      have grants := grants_ofDirectives (List.cons_ne_nil head rest)
      refine ⟨?_, grants.ordered, ?_⟩
      · intro empty
        have heard := grants.verbosity head.target
        rw [empty] at heard
        exact lastFor?_eq_none_iff.mp heard.symm head List.mem_cons_self rfl
      · intro directive member
        exact readable directive ((mem_foldl_put member).resolve_right List.not_mem_nil)

theorem wellFormed_of_ofText? (read : ofText? source = some filter) : filter.WellFormed := by
  obtain ⟨directives, listed, rfl⟩ := Option.map_eq_some_iff.mp read
  exact wellFormed_ofDirectives (readable_of_listOf? listed)

theorem WellFormed.ofText?_text (wellFormed : filter.WellFormed) :
    ofText? filter.text = some filter := by
  rw [ofText?, text, listOf?_intercalate_text wellFormed.nonempty wellFormed.readable,
    Option.map_some, ofDirectives_of_ordered wellFormed.nonempty wellFormed.ordered]

/-! ## Letters by their codes -/

theorem isUpper_iff {c : Char} : c.isUpper = true ↔ 65 ≤ c.toNat ∧ c.toNat ≤ 90 :=
  decide_eq_true_iff

theorem isLower_iff {c : Char} : c.isLower = true ↔ 97 ≤ c.toNat ∧ c.toNat ≤ 122 :=
  Bool.and_eq_true_iff.trans (and_congr decide_eq_true_iff decide_eq_true_iff)

theorem isAlpha_iff {c : Char} : c.isAlpha = true ↔ c.isUpper = true ∨ c.isLower = true :=
  Bool.or_eq_true_iff

theorem isAlphanum_iff {c : Char} : c.isAlphanum = true ↔ c.isAlpha = true ∨ c.isDigit = true :=
  Bool.or_eq_true_iff

/-! ## Filters as levels -/

/-- Nothing is trimmed off, at neither end. -/
structure Unpadded (chars : List Char) : Prop where
  nonempty : chars ≠ []
  front : chars.head?.all (fun c => !Text.isBlank c) = true
  back : chars.getLast?.all (fun c => !Text.isBlank c) = true

theorem dropWhile_of_head? {test : Char → Bool} {chars : List Char}
    (front : chars.head?.all (fun c => !test c) = true) : chars.dropWhile test = chars := by
  cases chars with
  | nil => rfl
  | cons head rest =>
      have kept : test head = false := by simpa using front
      simp [kept]

theorem Unpadded.trim_eq (unpadded : Unpadded source.toList) : Text.trim source = source := by
  have back : source.toList.reverse.head?.all (fun c => !Text.isBlank c) = true := by
    rw [List.head?_reverse]
    exact unpadded.back
  rw [Text.trim, Text.trimmedChars, dropWhile_of_head? unpadded.front, dropWhile_of_head? back,
    List.reverse_reverse, String.ofList_toList]

theorem Unpadded.append {before after : List Char} (middle : List Char)
    (front : before.head?.all (fun c => !Text.isBlank c) = true) (nonempty : before ≠ [])
    (unpadded : Unpadded after) : Unpadded (before ++ middle ++ after) where
  nonempty := by simp [nonempty]
  front := by
    rw [List.append_assoc, List.head?_append_of_ne_nil _ nonempty]
    exact front
  back := by
    rw [List.getLast?_append_of_ne_nil _ unpadded.nonempty]
    exact unpadded.back

theorem notBlank_of_isAlphanum {c : Char} (letter : c.isAlphanum = true) :
    Text.isBlank c = false := by
  have between : 48 ≤ c.toNat ∧ c.toNat ≤ 122 := by
    rw [isAlphanum_iff, isAlpha_iff, isUpper_iff, isLower_iff, Char.isDigit_iff_toNat] at letter
    simp only [Char.reduceToNat] at letter
    omega
  simp only [Text.isBlank, Bool.or_eq_false_iff, Bool.and_eq_false_iff, decide_eq_false_iff_not,
    beq_eq_false_iff_ne]
  omega

theorem notBlank_of_startsTarget {c : Char} (starts : startsTarget c = true) :
    Text.isBlank c = false := by
  simp only [startsTarget, Bool.or_eq_true, Bool.and_eq_true, decide_eq_true_eq, Bool.not_eq_true']
    at starts
  rcases starts with (((letter | ⟨-, solid⟩) | rfl) | rfl) | rfl
  · exact notBlank_of_isAlphanum letter
  · exact solid
  all_goals rfl

theorem unpadded_name (verbosity : Verbosity) : Unpadded verbosity.name.toList := by
  cases verbosity <;> exact ⟨by decide, by decide, by decide⟩

theorem unpadded_text {directive : Directive} (readable : directive.Readable) :
    Unpadded directive.text.toList := by
  obtain ⟨target, verbosity⟩ := directive
  cases target with
  | none => exact unpadded_name verbosity
  | some target =>
      obtain ⟨first, rest, chars, starts⟩ := (readable target rfl).starts
      rw [toList_text, ← List.singleton_append, ← List.append_assoc]
      refine .append ['='] ?_ ?_ (unpadded_name verbosity)
      · simpa [chars] using notBlank_of_startsTarget starts
      · simp [chars]

theorem unpadded_intercalate (nonempty : directives ≠ [])
    (readable : ∀ directive ∈ directives, directive.Readable) :
    Unpadded ([','].intercalate (directives.map fun directive => directive.text.toList)) := by
  induction directives with
  | nil => exact absurd rfl nonempty
  | cons head rest ih =>
      obtain ⟨here, later⟩ := List.forall_mem_cons.mp readable
      have first := unpadded_text here
      cases rest with
      | nil => simpa using first
      | cons second rest =>
          have rests := ih (List.cons_ne_nil second rest) later
          rw [List.map_cons, List.map_cons, List.intercalate_cons_cons]
          exact .append [','] first.front first.nonempty rests

theorem levelWords_lookup_eq_none {mark : Char} (marks : mark = ',' ∨ mark = '=')
    (inside : mark ∈ source.toList) : levelWords.lookup (Text.lowerCase source) = none := by
  have lower : mark ∈ (Text.lowerCase source).toList := by
    rw [Text.lowerCase, String.toList_ofList]
    refine List.mem_map.mpr ⟨mark, inside, ?_⟩
    rcases marks with rfl | rfl <;> decide
  have words : ∀ entry ∈ levelWords, ',' ∉ entry.1.toList ∧ '=' ∉ entry.1.toList := by
    decide
  rw [List.lookup_eq_none_iff]
  intro entry member
  rw [bne_iff_ne]
  intro same
  rw [same] at lower
  rcases marks with rfl | rfl
  · exact (words entry member).1 lower
  · exact (words entry member).2 lower

theorem normalizeLevel_of_lookup (unpadded : Unpadded source.toList)
    (found : (levelWords.lookup (Text.lowerCase source)).getD source = source) :
    normalizeLevel source = source := by
  have filled : source ≠ "" := by
    intro empty
    rw [empty] at unpadded
    exact unpadded.nonempty rfl
  rw [normalizeLevel, unpadded.trim_eq, if_neg filled, found]

theorem WellFormed.normalizeLevel_text (wellFormed : filter.WellFormed) :
    normalizeLevel filter.text = filter.text := by
  have chars := toList_intercalate_text filter.directives
  have unpadded := unpadded_intercalate wellFormed.nonempty wellFormed.readable
  rw [← chars] at unpadded
  refine normalizeLevel_of_lookup unpadded ?_
  -- A level word stays what it is, and every other text has a sign in it that no word has.
  obtain ⟨directives⟩ := filter
  match directives, wellFormed.nonempty with
  | [⟨none, verbosity⟩], _ => cases verbosity <;> decide
  | [⟨some target, verbosity⟩], _ =>
      have inside : '=' ∈ (text ⟨[⟨some target, verbosity⟩]⟩).toList := by
        rw [text, toList_intercalate_text]
        simp [toList_text]
      rw [levelWords_lookup_eq_none (.inr rfl) inside, Option.getD_none]
  | first :: second :: rest, _ =>
      have inside : ',' ∈ (text ⟨first :: second :: rest⟩).toList := by
        rw [text, toList_intercalate_text]
        simp
      rw [levelWords_lookup_eq_none (.inl rfl) inside, Option.getD_none]

/-- A filter that was read is what its text is read as, be it configured as the
level. -/
theorem WellFormed.ofLevel_text (wellFormed : filter.WellFormed) : ofLevel filter.text = filter := by
  rw [ofLevel, wellFormed.normalizeLevel_text, wellFormed.ofText?_text, Option.getD_some]

end LogFilter

end MemberDispatch
