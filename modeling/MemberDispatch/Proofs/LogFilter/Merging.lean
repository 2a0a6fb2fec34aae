import MemberDispatch.Proofs.LogFilter.Written

/-!
# The level merged with the environment

Both lists are read as one, those of the environment behind those of the level.
The one list is valid if both are, and its last directive for a target is that
of the environment if there is one.  Where the one list is invalid, either list
may still be valid by itself.
-/

set_option autoImplicit false

namespace MemberDispatch.LogFilter

open Directive

variable {level normal source : String} {environment : Option String} {filter : LogFilter}
  {directives : List Directive}

/-! ## The level as a list -/

/-- What a level stands for, as a list of directives. -/
inductive Normalizes (level : String) : String → Prop where
  | blank (blank : Text.trim level = "") : Normalizes level "info"
  | word (verbosity : Verbosity) (word : Text.lowerCase (Text.trim level) = verbosity.name) :
      Normalizes level verbosity.name
  | warning (word : Text.lowerCase (Text.trim level) = "warning") : Normalizes level "warn"
  | list (filled : Text.trim level ≠ "")
      (noName : ∀ verbosity : Verbosity, Text.lowerCase (Text.trim level) ≠ verbosity.name)
      (noWarning : Text.lowerCase (Text.trim level) ≠ "warning") :
      Normalizes level (Text.trim level)

theorem isAlpha_of_isLower_toLower {c : Char} (lower : c.toLower.isLower = true) :
    c.isAlpha = true := by
  by_cases upper : c.isUpper = true
  · exact isAlpha_iff.mpr (.inl upper)
  · have same : c.toLower = c := dif_neg fun range => upper (decide_eq_true range)
    rw [same] at lower
    exact isAlpha_iff.mpr (.inr lower)

theorem isAlpha_of_lowerCase_name {verbosity : Verbosity}
    (word : Text.lowerCase source = verbosity.name) : ∀ c ∈ source.toList, c.isAlpha = true := by
  have small : verbosity.name.toList.all Char.isLower = true := by
    cases verbosity <;> decide
  intro c inside
  have lower : c.toLower ∈ (Text.lowerCase source).toList := by
    rw [Text.lowerCase, String.toList_ofList]
    exact List.mem_map_of_mem inside
  exact isAlpha_of_isLower_toLower (List.all_eq_true.mp small _ (word ▸ lower))

theorem numeral?_of_isAlpha {chars : List Char} (alpha : ∀ c ∈ chars, c.isAlpha = true) :
    Verbosity.numeral? chars = none := by
  cases chars with
  | nil => rfl
  | cons first rest =>
      have letter := alpha first List.mem_cons_self
      have noSign : first ≠ '+' := by
        intro same
        rw [same] at letter
        exact absurd letter (by decide)
      have noDigit : first.isDigit = false := by
        rw [isAlpha_iff, isUpper_iff, isLower_iff] at letter
        rw [← Bool.not_eq_true, Char.isDigit_iff_toNat]
        simp only [Char.reduceToNat]
        omega
      simp [Verbosity.numeral?, noSign, noDigit]

/-- A name in any case is a list of one directive. -/
theorem listOf?_of_lowerCase_name {verbosity : Verbosity}
    (word : Text.lowerCase source = verbosity.name) :
    listOf? source = some [⟨none, verbosity⟩] := by
  have alpha := isAlpha_of_lowerCase_name word
  have withoutComma : ',' ∉ source.toList := fun inside => absurd (alpha ',' inside) (by decide)
  have withoutEquals : ∀ c ∈ source.toList, decide (c ≠ '=') = true := by
    intro c inside
    rw [decide_eq_true_eq]
    intro same
    rw [same] at inside
    exact absurd (alpha '=' inside) (by decide)
  have known : Verbosity.ofText? source = some verbosity := by
    rw [Verbosity.ofText?, numeral?_of_isAlpha alpha, word]
    cases verbosity <;> decide
  obtain ⟨first, rest, chars⟩ : ∃ first rest, source.toList = first :: rest := by
    refine List.exists_cons_of_ne_nil fun empty => ?_
    rw [Text.lowerCase, empty] at word
    cases verbosity <;> exact absurd word (by decide)
  have starts : startsTarget first = true := by
    have letter := alpha first (chars ▸ List.mem_cons_self)
    simp [startsTarget, isAlphanum_iff, letter]
  have piece : pieces source = [source.toList] := by
    rw [pieces, splitAt_eq_splitOn, List.splitOn_eq_singleton withoutComma]
    simp [chars]
  have head : source.toList.head? = some first := by
    simp [chars]
  have read : ofPiece? source.toList = some ⟨none, verbosity⟩ := by
    rw [ofPiece?, head, List.dropWhile_eq_nil_iff.mpr withoutEquals]
    simp [starts, ofWord, known]
  rw [listOf?_eq, piece, mapM_eq_some_iff]
  exact .cons read .nil

theorem exists_normalizes (level : String) : ∃ normal, Normalizes level normal := by
  by_cases blank : Text.trim level = ""
  · exact ⟨_, .blank blank⟩
  · by_cases name : ∃ verbosity : Verbosity, Text.lowerCase (Text.trim level) = verbosity.name
    · obtain ⟨verbosity, word⟩ := name
      exact ⟨_, .word verbosity word⟩
    · by_cases word : Text.lowerCase (Text.trim level) = "warning"
      · exact ⟨_, .warning word⟩
      · exact ⟨_, .list blank (fun verbosity same => name ⟨verbosity, same⟩) word⟩

theorem Normalizes.listOf?_eq (normalizes : Normalizes level normal) :
    listOf? normal = listOf? (normalizeLevel level) := by
  cases normalizes with
  | blank blank => rw [normalizeLevel, if_pos blank]; rfl
  | word verbosity word =>
      have filled : Text.trim level ≠ "" := by
        intro blank
        rw [blank] at word
        cases verbosity <;> exact absurd word (by decide)
      rw [normalizeLevel, if_neg filled, word]
      cases verbosity with
      | off => exact (listOf?_of_lowerCase_name word).symm
      | _ => rfl
  | warning word =>
      have filled : Text.trim level ≠ "" := by
        intro blank
        rw [blank] at word
        exact absurd word (by decide)
      rw [normalizeLevel, if_neg filled, word]
      rfl
  | list filled noName noWarning =>
      have noWord : levelWords.lookup (Text.lowerCase (Text.trim level)) = none := by
        rw [List.lookup_eq_none_iff, levelWords]
        simp only [List.forall_mem_cons, List.not_mem_nil, false_implies, implies_true, and_true,
          bne_iff_ne]
        exact ⟨noName .trace, noName .debug, noName .info, noName .warn, noWarning, noName .error⟩
      rw [normalizeLevel, if_neg filled, noWord, Option.getD_none]

/-! ## Merged lists -/

/-- How the list of the level and that of the environment make a filter, where
either may be missing. -/
inductive Merges (filter : LogFilter) : Option (List Directive) → Option (List Directive) → Prop where
  | both {configured added : List Directive}
      (grants : filter.Grants fun target =>
        (lastFor? added target).or (lastFor? configured target)) :
      Merges filter (some configured) (some added)
  | level {configured : List Directive} (grants : filter.Grants (lastFor? configured)) :
      Merges filter (some configured) none
  | environment {added : List Directive} (grants : filter.Grants (lastFor? added)) :
      Merges filter none (some added)
  | neither (info : filter = ⟨[⟨none, .info⟩]⟩) : Merges filter none none

theorem nonempty_of_listOf? (spelled : pieces source ≠ [])
    (read : listOf? source = some directives) : directives ≠ [] := by
  have each := mapM_eq_some_iff.mp (listOf?_eq source ▸ read)
  intro empty
  rw [empty] at each
  exact spelled (List.forall₂_nil_right_iff.mp each)

theorem ofText?_append (before after : String) :
    ofText? (before ++ "," ++ after) =
      (listOf? before).bind fun first => (listOf? after).map fun second =>
        ofDirectives (first ++ second) := by
  rw [ofText?, listOf?_append]
  cases listOf? before <;> cases listOf? after <;> rfl

theorem merges_ofLevel (spelled : pieces (normalizeLevel level) ≠ []) :
    (ofLevel level).Merges (listOf? (normalizeLevel level)) none := by
  rw [ofLevel, ofText?]
  cases read : listOf? (normalizeLevel level) with
  | none => exact .neither rfl
  | some configured => exact .level (grants_ofDirectives (nonempty_of_listOf? spelled read))

theorem merges_effective {value : String} (spelled : pieces (normalizeLevel level) ≠ [])
    (filled : Text.trim value ≠ "") (spelledHere : pieces (Text.trim value) ≠ []) :
    (effective level (some value)).Merges (listOf? (normalizeLevel level))
      (listOf? (Text.trim value)) := by
  have present : (Option.map Text.trim (some value)).filter (· ≠ "") = some (Text.trim value) := by
    simp [filled]
  have alone := merges_ofLevel spelled
  rw [effective, present]
  dsimp only
  rw [ofText?_append, ofText?]
  cases read : listOf? (normalizeLevel level) with
  | none =>
      cases readHere : listOf? (Text.trim value) with
      | none => simpa [read] using alone
      | some added => exact .environment (grants_ofDirectives (nonempty_of_listOf? spelledHere readHere))
  | some configured =>
      cases readHere : listOf? (Text.trim value) with
      | none => simpa [read] using alone
      | some added =>
          have nonempty : configured ++ added ≠ [] := by
            simp [nonempty_of_listOf? spelled read]
          have grants := grants_ofDirectives nonempty
          exact .both ⟨grants.ordered, fun target =>
            (grants.verbosity target).trans (lastFor?_append configured added target)⟩

/-! ## The effective filter -/

/-- An environment without directives. -/
def Unset (environment : Option String) : Prop :=
  ∀ value, environment = some value → Text.trim value = ""

theorem effective_of_unset (unset : Unset environment) : effective level environment = ofLevel level := by
  have absent : (environment.map Text.trim).filter (· ≠ "") = none := by
    cases environment with
    | none => rfl
    | some value => simp [unset value rfl]
  rw [effective, absent]

theorem wellFormed_ofLevel (level : String) : (ofLevel level).WellFormed := by
  rw [ofLevel]
  cases read : ofText? (normalizeLevel level) with
  | none => exact wellFormed_single .info
  | some filter => exact wellFormed_of_ofText? read

theorem wellFormed_effective (level : String) (environment : Option String) :
    (effective level environment).WellFormed := by
  rw [effective]
  cases (environment.map Text.trim).filter (· ≠ "") with
  | none => exact wellFormed_ofLevel level
  | some directives =>
      dsimp only
      cases both : ofText? (normalizeLevel level ++ "," ++ directives) with
      | some merged => exact wellFormed_of_ofText? both
      | none =>
          dsimp only
          cases read : ofText? directives with
          | none =>
              rw [Option.getD_none]
              exact wellFormed_ofLevel level
          | some filter => exact wellFormed_of_ofText? read

theorem pieces_normalizeLevel (spelled : Text.trim level = "" ∨ pieces (Text.trim level) ≠ []) :
    pieces (normalizeLevel level) ≠ [] := by
  have words : ∀ entry ∈ levelWords, pieces entry.2 ≠ [] := by
    decide
  rw [normalizeLevel]
  split
  · decide
  · rename_i filled
    cases found : levelWords.lookup (Text.lowerCase (Text.trim level)) with
    | none => exact spelled.resolve_left filled
    | some word =>
        obtain ⟨before, after, split, -⟩ := List.lookup_eq_some_iff.mp found
        exact words _ (split ▸ List.mem_append_right before List.mem_cons_self)

/-- Each target has the verbosity of its last directive in the environment, or else
in the level, as long as both lists are valid.  A list that is not valid does not
count, and `info` stands for two of them.  The text of the filter, configured as
the level, gives the same filter again. -/
theorem effective_merges (spelled : Text.trim level = "" ∨ pieces (Text.trim level) ≠ [])
    (spelledHere : ∀ value, environment = some value →
      Text.trim value = "" ∨ pieces (Text.trim value) ≠ []) :
    (∃ normal, Normalizes level normal) ∧
      (∀ normal, Normalizes level normal →
        (Unset environment → (effective level environment).Merges (listOf? normal) none) ∧
          ∀ value, environment = some value → Text.trim value ≠ "" →
            (effective level environment).Merges (listOf? normal) (listOf? (Text.trim value))) ∧
      effective (effective level environment).text none = effective level environment := by
  have normalSpelled := pieces_normalizeLevel spelled
  refine ⟨exists_normalizes level, ?_, (wellFormed_effective level environment).ofLevel_text⟩
  intro normal normalizes
  rw [normalizes.listOf?_eq]
  constructor
  · intro unset
    rw [effective_of_unset unset]
    exact merges_ofLevel normalSpelled
  · intro value same filled
    have pieced := (spelledHere value same).resolve_left filled
    rw [same]
    exact merges_effective normalSpelled filled pieced

theorem effective_merges_warning :
    (effective " WARNING " (some "stubble.reflect=trace ")).Merges
        (some [⟨none, .warn⟩]) (some [⟨some "stubble.reflect", .trace⟩]) ∧
      (effective " WARNING " (some "stubble.reflect=trace ")).text = "stubble.reflect=trace,warn" ∧
      effective "stubble.reflect=trace,warn" none =
        effective " WARNING " (some "stubble.reflect=trace ") := by
  have normalizes : Normalizes " WARNING " "warn" := .warning (by decide)
  have spelled : pieces (Text.trim " WARNING ") ≠ [] := by
    decide
  have spelledHere : ∀ value, some "stubble.reflect=trace " = some value →
      Text.trim value = "" ∨ pieces (Text.trim value) ≠ [] := by
    intro value same
    cases same
    exact .inr (by decide)
  obtain ⟨-, merges, again⟩ := effective_merges (.inr spelled) spelledHere
  have merged := (merges "warn" normalizes).2 _ rfl (by decide)
  have level : listOf? "warn" = some [⟨none, .warn⟩] := by
    decide
  have added : listOf? (Text.trim "stubble.reflect=trace ") =
      some [⟨some "stubble.reflect", .trace⟩] := by
    decide
  have written : (effective " WARNING " (some "stubble.reflect=trace ")).text =
      "stubble.reflect=trace,warn" := by
    decide
  rw [level, added] at merged
  exact ⟨merged, written, written ▸ again⟩

end MemberDispatch.LogFilter
