import Mathlib.Data.List.Forall2
import Mathlib.Data.List.Nodup
import Mathlib.Data.List.Zip
/-!
Lists whose items are related one by one.
-/

namespace IngressControl.Pairs

variable {α β γ : Type} {related other : α → β → Prop}

theorem imp_mem {firsts : List α} {seconds : List β}
    (kept : ∀ first ∈ firsts, ∀ second ∈ seconds, related first second → other first second)
    (pairs : List.Forall₂ related firsts seconds) : List.Forall₂ other firsts seconds := by
  induction pairs with
  | nil => exact .nil
  | cons here _ ih =>
      exact .cons (kept _ (.head _) _ (.head _) here) <|
        ih fun first member second member' => kept first (.tail _ member) second (.tail _ member')

theorem exists_zip {firsts : List α} {seconds : List β}
    (pairs : List.Forall₂ related firsts seconds) {first : α} (member : first ∈ firsts) :
    ∃ second, (first, second) ∈ firsts.zip seconds := by
  induction pairs with
  | nil => cases member
  | cons _ _ ih =>
      rcases List.mem_cons.mp member with rfl | behind
      · exact ⟨_, .head _⟩
      · obtain ⟨second, paired⟩ := ih behind
        exact ⟨second, .tail _ paired⟩

theorem exists_zip_left {firsts : List α} {seconds : List β}
    (pairs : List.Forall₂ related firsts seconds) {second : β} (member : second ∈ seconds) :
    ∃ first, (first, second) ∈ firsts.zip seconds := by
  obtain ⟨first, paired⟩ := exists_zip pairs.flip member
  have swapped : (second, first).swap ∈ (seconds.zip firsts).map Prod.swap :=
    List.mem_map_of_mem paired
  rw [List.zip_swap] at swapped
  exact ⟨first, swapped⟩

theorem zip_right_unique {firsts : List α} {seconds : List β}
    (pairs : List.Forall₂ related firsts seconds) (once : firsts.Nodup) {first : α}
    {second second' : β} (paired : (first, second) ∈ firsts.zip seconds)
    (paired' : (first, second') ∈ firsts.zip seconds) : second = second' := by
  rw [← List.map_fst_zip (Nat.le_of_eq pairs.length_eq)] at once
  exact (Prod.mk.inj (List.inj_on_of_nodup_map once paired paired' rfl)).2

theorem zip_left_unique {firsts : List α} {seconds : List β}
    (pairs : List.Forall₂ related firsts seconds) (once : seconds.Nodup) {first first' : α}
    {second : β} (paired : (first, second) ∈ firsts.zip seconds)
    (paired' : (first', second) ∈ firsts.zip seconds) : first = first' := by
  rw [← List.map_snd_zip (Nat.le_of_eq pairs.length_eq.symm)] at once
  exact (Prod.mk.inj (List.inj_on_of_nodup_map once paired paired' rfl)).1

theorem exists_right {firsts : List α} {seconds : List β}
    (pairs : List.Forall₂ related firsts seconds) {first : α} (member : first ∈ firsts) :
    ∃ second ∈ seconds, related first second := by
  obtain ⟨second, paired⟩ := exists_zip pairs member
  exact ⟨second, (List.of_mem_zip paired).2, List.forall₂_zip pairs paired⟩

theorem exists_left {firsts : List α} {seconds : List β}
    (pairs : List.Forall₂ related firsts seconds) {second : β} (member : second ∈ seconds) :
    ∃ first ∈ firsts, related first second :=
  exists_right pairs.flip member

theorem map_eq_iff {image : α → γ} {image' : β → γ} {firsts : List α} {seconds : List β} :
    firsts.map image = seconds.map image' ↔
      List.Forall₂ (fun first second => image first = image' second) firsts seconds := by
  have equal (images images' : List γ) : images = images' ↔ List.Forall₂ Eq images images' := by
    rw [List.forall₂_eq_eq_eq]
  rw [equal, List.forall₂_map_left_iff, List.forall₂_map_right_iff]

theorem find?_zip {wanted : α → Bool} {wanted' : β → Bool}
    (same : ∀ first second, related first second → wanted first = wanted' second)
    {firsts : List α} {seconds : List β} (pairs : List.Forall₂ related firsts seconds) {first : α}
    (found : firsts.find? wanted = some first) :
    ∃ second, (first, second) ∈ firsts.zip seconds ∧ seconds.find? wanted' = some second := by
  induction pairs with
  | nil => cases found
  | @cons head head' _ _ here _ ih =>
      cases here_wanted : wanted head with
      | true =>
          rw [List.find?_cons_of_pos here_wanted] at found
          cases found
          exact ⟨head', .head _, List.find?_cons_of_pos (same _ _ here ▸ here_wanted)⟩
      | false =>
          rw [List.find?_cons_of_neg (by simp [here_wanted])] at found
          obtain ⟨second, paired, found'⟩ := ih found
          refine ⟨second, .tail _ paired, ?_⟩
          rw [List.find?_cons_of_neg (by simp [← same _ _ here, here_wanted]), found']

theorem countP_congr {wanted : α → Bool} {wanted' : β → Bool}
    (same : ∀ first second, related first second → wanted first = wanted' second)
    {firsts : List α} {seconds : List β} (pairs : List.Forall₂ related firsts seconds) :
    firsts.countP wanted = seconds.countP wanted' := by
  induction pairs with
  | nil => rfl
  | cons here _ ih => rw [List.countP_cons, List.countP_cons, same _ _ here, ih]

theorem filterMap_sublist {pick : α → Option γ} {pick' : β → Option γ}
    (picked : ∀ first second, related first second → ∀ found, pick' second = some found →
      pick first = some found) {firsts : List α} {seconds : List β}
    (pairs : List.Forall₂ related firsts seconds) :
    (seconds.filterMap pick').Sublist (firsts.filterMap pick) := by
  induction pairs with
  | nil => exact .slnil
  | @cons first second _ _ here _ ih =>
      cases found : pick' second with
      | none =>
          rw [List.filterMap_cons_none found]
          exact ih.trans ((List.sublist_cons_self _ _).filterMap pick)
      | some value =>
          rw [List.filterMap_cons_some found, List.filterMap_cons_some (picked _ _ here value found)]
          exact ih.cons_cons value

theorem exists_split {firsts : List α} {before behind : List β} {target : β}
    (pairs : List.Forall₂ related firsts (before ++ target :: behind)) :
    ∃ front first rear, firsts = front ++ first :: rear ∧ List.Forall₂ related front before ∧
      related first target ∧ List.Forall₂ related rear behind := by
  have front := List.forall₂_take_append firsts before _ pairs
  obtain ⟨first, rear, here, behind, same⟩ :=
    List.forall₂_cons_right_iff.mp (List.forall₂_drop_append firsts before _ pairs)
  exact ⟨_, first, rear, by rw [← same, List.take_append_drop], front, here, behind⟩

end IngressControl.Pairs
