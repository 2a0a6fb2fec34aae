import MemberDispatch.Proofs.Resolve.Specificity
import MemberDispatch.Resolve.Search

/-!
# Scans that keep a champion

Both halves of resolution are one scan: it keeps an element, and replaces it by
each later one that beats it.  Within a class `prefers` decides, along the
class chain specificity alone does.  A scan whose beating follows an order
never keeps an element that is strictly above one it has met; and elements that
beat all others make these others irrelevant.
-/

set_option autoImplicit false

namespace MemberDispatch

/-- The element kept after a scan of `rest` that starts from `kept`. -/
def champion {α : Type} (beats : α → α → Bool) : α → List α → α
  | kept, [] => kept
  | kept, next :: rest => champion beats (if beats next kept then next else kept) rest

/-- The element that a scan of a whole list keeps. -/
def champion? {α : Type} (beats : α → α → Bool) : List α → Option α
  | [] => none
  | first :: rest => some (champion beats first rest)

/-- Beating follows an order on the valid elements: whatever is strictly below
beats, and whatever beats is at least weakly below. -/
structure FollowsOrder {α : Type} (beats : α → α → Bool) (valid : α → Prop)
    (weak strict : α → α → Prop) : Prop where
  refl : ∀ x, weak x x
  trans : ∀ {x y z}, weak x y → weak y z → weak x z
  irrefl : ∀ x, ¬ strict x x
  strict_trans : ∀ {x y z}, strict x y → weak y z → strict x z
  decisive : ∀ {x y}, strict x y → beats x y = true
  faithful : ∀ {x y}, valid x → valid y → beats x y = true → weak x y

section Scan

variable {α : Type} {beats : α → α → Bool} {valid : α → Prop}
variable {weak strict : α → α → Prop}

theorem champion_mem (kept : α) (rest : List α) :
    champion beats kept rest ∈ kept :: rest := by
  induction rest generalizing kept with
  | nil => simp [champion]
  | cons next rest ih =>
      rw [champion]
      by_cases beaten : beats next kept = true
      · rw [if_pos beaten]
        exact List.mem_cons_of_mem _ (ih next)
      · rw [if_neg beaten]
        rcases List.mem_cons.mp (ih kept) with same | later
        · rw [same]
          exact List.mem_cons_self
        · exact List.mem_cons_of_mem _ (List.mem_cons_of_mem _ later)

theorem mem_of_champion? {found : α} {elements : List α}
    (kept : champion? beats elements = some found) : found ∈ elements := by
  cases elements with
  | nil => simp [champion?] at kept
  | cons first rest =>
      rw [champion?, Option.some.injEq] at kept
      exact kept ▸ champion_mem first rest

theorem champion?_eq_none_iff {elements : List α} :
    champion? beats elements = none ↔ elements = [] := by
  cases elements <;> simp [champion?]

/-- What nothing after it beats is kept. -/
theorem champion_of_unbeaten {kept : α} {rest : List α}
    (unbeaten : ∀ x ∈ rest, beats x kept = false) : champion beats kept rest = kept := by
  induction rest with
  | nil => rfl
  | cons next rest ih =>
      rw [champion, unbeaten next List.mem_cons_self, if_neg Bool.false_ne_true]
      exact ih fun x member => unbeaten x (List.mem_cons_of_mem next member)

/-- Where nothing beats anything, the first element is kept. -/
theorem champion?_of_unbeaten {elements : List α}
    (unbeaten : ∀ x ∈ elements, ∀ y ∈ elements, beats x y = false) :
    champion? beats elements = elements.head? := by
  cases elements with
  | nil => rfl
  | cons first rest =>
      rw [champion?, List.head?_cons, champion_of_unbeaten]
      intro x member
      exact unbeaten x (List.mem_cons_of_mem first member) first List.mem_cons_self

/-! ## Scans along an order -/

theorem FollowsOrder.champion_weak (order : FollowsOrder beats valid weak strict)
    {kept : α} {rest : List α} (keptValid : valid kept) (restValid : ∀ x ∈ rest, valid x) :
    weak (champion beats kept rest) kept := by
  induction rest generalizing kept with
  | nil => exact order.refl kept
  | cons next rest ih =>
      have nextValid : valid next := restValid next List.mem_cons_self
      have laterValid : ∀ x ∈ rest, valid x := fun x member =>
        restValid x (List.mem_cons_of_mem _ member)
      rw [champion]
      by_cases beaten : beats next kept = true
      · rw [if_pos beaten]
        exact order.trans (ih nextValid laterValid) (order.faithful nextValid keptValid beaten)
      · rw [if_neg beaten]
        exact ih keptValid laterValid

/-- No element of a scan lies strictly below the one that it keeps. -/
theorem FollowsOrder.champion_minimal (order : FollowsOrder beats valid weak strict)
    {kept : α} {rest : List α} (keptValid : valid kept) (restValid : ∀ x ∈ rest, valid x) :
    ∀ x ∈ kept :: rest, ¬ strict x (champion beats kept rest) := by
  induction rest generalizing kept with
  | nil =>
      intro x member
      rw [List.mem_singleton.mp member]
      exact order.irrefl kept
  | cons next rest ih =>
      have nextValid : valid next := restValid next List.mem_cons_self
      have laterValid : ∀ x ∈ rest, valid x := fun x member =>
        restValid x (List.mem_cons_of_mem _ member)
      intro x member outranked
      rw [champion] at outranked
      by_cases beaten : beats next kept = true
      · rw [if_pos beaten] at outranked
        rcases List.mem_cons.mp member with rfl | later
        · -- The element replaced lies above the one that replaced it.
          have toNext := order.strict_trans outranked (order.champion_weak nextValid laterValid)
          exact order.irrefl x
            (order.strict_trans toNext (order.faithful nextValid keptValid beaten))
        · exact ih nextValid laterValid x later outranked
      · rw [if_neg beaten] at outranked
        rcases List.mem_cons.mp member with rfl | later
        · exact ih keptValid laterValid x List.mem_cons_self outranked
        · rcases List.mem_cons.mp later with rfl | later
          · have toKept := order.strict_trans outranked
              (order.champion_weak keptValid laterValid)
            exact beaten (order.decisive toKept)
          · exact ih keptValid laterValid x (List.mem_cons_of_mem _ later) outranked

theorem FollowsOrder.champion?_minimal (order : FollowsOrder beats valid weak strict)
    {elements : List α} {found : α} (allValid : ∀ x ∈ elements, valid x)
    (kept : champion? beats elements = some found) : ∀ x ∈ elements, ¬ strict x found := by
  cases elements with
  | nil => simp [champion?] at kept
  | cons first rest =>
      rw [champion?, Option.some.injEq] at kept
      rw [← kept]
      apply order.champion_minimal (allValid first List.mem_cons_self)
      intro x member
      exact allValid x (List.mem_cons_of_mem _ member)

/-! ## Scans with favoured elements -/

/-- A favoured element beats every other and is beaten by none of them. -/
structure Favours (beats : α → α → Bool) (valid : α → Prop) (favoured : α → Bool) : Prop where
  wins : ∀ {x y}, valid x → valid y → favoured x = true → favoured y = false →
    beats x y = true
  stays : ∀ {x y}, valid x → valid y → favoured x = false → favoured y = true →
    beats x y = false

variable {favoured : α → Bool}

theorem Favours.champion_of_kept (favours : Favours beats valid favoured)
    {kept : α} {rest : List α} (keptValid : valid kept) (restValid : ∀ x ∈ rest, valid x)
    (favourite : favoured kept = true) :
    champion beats kept rest = champion beats kept (rest.filter favoured) := by
  induction rest generalizing kept with
  | nil => rfl
  | cons next rest ih =>
      have nextValid : valid next := restValid next List.mem_cons_self
      have laterValid : ∀ x ∈ rest, valid x := fun x member =>
        restValid x (List.mem_cons_of_mem _ member)
      cases nextFavoured : favoured next with
      | false =>
          rw [List.filter_cons_of_neg (by simp [nextFavoured]), champion,
            favours.stays nextValid keptValid nextFavoured favourite]
          exact ih keptValid laterValid favourite
      | true =>
          rw [List.filter_cons_of_pos nextFavoured, champion, champion]
          by_cases beaten : beats next kept = true
          · rw [if_pos beaten]
            exact ih nextValid laterValid nextFavoured
          · rw [if_neg beaten]
            exact ih keptValid laterValid favourite

theorem Favours.champion_of_not_kept (favours : Favours beats valid favoured)
    {kept first : α} {rest others : List α} (keptValid : valid kept)
    (restValid : ∀ x ∈ rest, valid x) (ordinary : favoured kept = false)
    (favourites : rest.filter favoured = first :: others) :
    champion beats kept rest = champion beats first others := by
  induction rest generalizing kept with
  | nil => simp at favourites
  | cons next rest ih =>
      have nextValid : valid next := restValid next List.mem_cons_self
      have laterValid : ∀ x ∈ rest, valid x := fun x member =>
        restValid x (List.mem_cons_of_mem _ member)
      rw [champion]
      cases nextFavoured : favoured next with
      | false =>
          rw [List.filter_cons_of_neg (by simp [nextFavoured])] at favourites
          split
          · exact ih nextValid laterValid nextFavoured favourites
          · exact ih keptValid laterValid ordinary favourites
      | true =>
          rw [List.filter_cons_of_pos nextFavoured, List.cons.injEq] at favourites
          rw [favours.wins nextValid keptValid nextFavoured ordinary, if_pos rfl,
            favours.champion_of_kept nextValid laterValid nextFavoured,
            favourites.1, favourites.2]

/-- If there are favoured elements at all, a scan of them alone keeps the same
element as the scan of the whole list. -/
theorem Favours.champion?_eq (favours : Favours beats valid favoured) {elements : List α}
    (allValid : ∀ x ∈ elements, valid x) (some : elements.filter favoured ≠ []) :
    champion? beats elements = champion? beats (elements.filter favoured) := by
  cases elements with
  | nil => rfl
  | cons first rest =>
      have firstValid : valid first := allValid first List.mem_cons_self
      have restValid : ∀ x ∈ rest, valid x := fun x member =>
        allValid x (List.mem_cons_of_mem _ member)
      cases firstFavoured : favoured first with
      | true =>
          rw [List.filter_cons_of_pos firstFavoured, champion?, champion?,
            favours.champion_of_kept firstValid restValid firstFavoured]
      | false =>
          rw [List.filter_cons_of_neg (by simp [firstFavoured])] at some ⊢
          cases favourites : rest.filter favoured with
          | nil => exact absurd favourites some
          | cons next others =>
              rw [champion?, champion?,
                favours.champion_of_not_kept firstValid restValid firstFavoured favourites]

/-- Scanning the favoured elements alone finds what the scan of all finds, if
that is favoured, and nothing otherwise. -/
theorem Favours.champion?_filter (favours : Favours beats valid favoured)
    {elements : List α} (allValid : ∀ x ∈ elements, valid x) :
    champion? beats (elements.filter favoured) =
      (champion? beats elements).filter favoured := by
  by_cases nothing : elements.filter favoured = []
  · rw [nothing, champion?]
    cases kept : champion? beats elements with
    | none => rfl
    | some found =>
        have ordinary := List.filter_eq_nil_iff.mp nothing found (mem_of_champion? kept)
        exact (Option.filter_some_neg (eq_false_of_ne_true ordinary)).symm
  · rw [favours.champion?_eq allValid nothing]
    cases kept : champion? beats (elements.filter favoured) with
    | none => rfl
    | some found =>
        have favourite := (List.mem_filter.mp (mem_of_champion? kept)).2
        exact (Option.filter_some_pos favourite).symm

/-- Where being favoured is all that counts, the first favoured element is kept,
and the first of all if there is none. -/
theorem champion?_eq_find?_or_head? {elements : List α}
    (decides : ∀ x ∈ elements, ∀ y ∈ elements, beats x y = (favoured x && !favoured y)) :
    champion? beats elements = (elements.find? favoured).or elements.head? := by
  have favours : Favours beats (· ∈ elements) favoured :=
    { wins := by
        intro x y xMember yMember favourite ordinary
        simp [decides x xMember y yMember, favourite, ordinary]
      stays := by
        intro x y xMember yMember ordinary favourite
        simp [decides x xMember y yMember, ordinary] }
  by_cases nothing : elements.filter favoured = []
  · have ordinary := List.filter_eq_nil_iff.mp nothing
    have unfound : elements.find? favoured = none :=
      List.find?_eq_none.mpr fun x member => ordinary x member
    rw [unfound, Option.none_or, champion?_of_unbeaten]
    intro x xMember y yMember
    rw [decides x xMember y yMember, eq_false_of_ne_true (ordinary x xMember), Bool.false_and]
  · rw [favours.champion?_eq (fun _ member => member) nothing, champion?_of_unbeaten,
      List.head?_filter]
    · cases found : elements.find? favoured with
      | none =>
          rw [← List.head?_filter, List.head?_eq_none_iff] at found
          exact absurd found nothing
      | some first => rfl
    · intro x xMember y yMember
      obtain ⟨xElement, _⟩ := List.mem_filter.mp xMember
      obtain ⟨yElement, favourite⟩ := List.mem_filter.mp yMember
      rw [decides x xElement y yElement, favourite, Bool.not_true, Bool.and_false]

end Scan

/-! ## Resolution as a scan -/

namespace Scope

variable {scope : Scope}

theorem keep_foldl_head? (types : List Ty) (kept : Candidate) (earlier rest : List Candidate) :
    (rest.foldl (scope.keep types) (kept :: earlier)).head? =
      some (champion (scope.prefers types) kept rest) := by
  induction rest generalizing kept earlier with
  | nil => rfl
  | cons next rest ih =>
      rw [List.foldl_cons, champion, keep]
      split
      · exact ih next (kept :: earlier)
      · exact ih kept earlier

/-- The candidate that represents a class is what a scan of its candidates by
`prefers` keeps. -/
theorem candidateIn_eq_champion? (query : Query) (id : ClassId) :
    scope.candidateIn query id =
      champion? (scope.prefers query.types) (scope.candidatesIn query id) := by
  rw [candidateIn, keptIn]
  cases scope.candidatesIn query id with
  | nil => rfl
  | cons first rest => exact keep_foldl_head? query.types first [] rest

/-- Displacing along the chain: the farther candidate has to be more specific. -/
def displaces (scope : Scope) (farther nearer : Candidate) : Bool :=
  scope.store.moreSpecific farther.realParams nearer.realParams

theorem climb_foldl_some (kept : Candidate) (rest : List Candidate) :
    rest.foldl scope.climb (some kept) = some (champion scope.displaces kept rest) := by
  induction rest generalizing kept with
  | nil => rfl
  | cons next rest ih =>
      rw [List.foldl_cons, champion, climb, displaces]
      split <;> exact ih _

def representatives (scope : Scope) (query : Query) (start : ClassId) : List Candidate :=
  (scope.chain start).filterMap (scope.candidateIn query)

theorem resolve_eq_champion? (query : Query) (start : ClassId) :
    scope.resolve query start =
      champion? scope.displaces (scope.representatives query start) := by
  rw [resolve, ← representatives]
  cases scope.representatives query start with
  | nil => rfl
  | cons first rest => exact climb_foldl_some first rest

end Scope

end MemberDispatch
