/-!
# Keyed lists

A finite map from texts, or a finite set of texts, kept as a list in ascending order of the keys
with one entry per key. The order is that of the code points, so the list is the one every reader
of the map sees. Entries with different keys are all kept, in whatever order they come.
-/

namespace SearchFilter.Order

variable {α : Type}

/-- Puts an entry in its place; an entry with the same key gives way to it. -/
def insertBy (key : α → String) (x : α) : List α → List α
  | [] => [x]
  | y :: ys =>
    if key x < key y then x :: y :: ys
    else if key x = key y then x :: ys
    else y :: insertBy key x ys

/-- The keyed list of the entries, the last of equal keys winning. -/
def ofListBy (key : α → String) (xs : List α) : List α :=
  xs.foldl (fun acc x => insertBy key x acc) []

/-- The entry with the key. -/
def findBy? (key : α → String) (k : String) (xs : List α) : Option α :=
  xs.find? fun x => key x == k

/-! ## Entries of a keyed list -/

variable {key : α → String}

theorem mem_of_mem_insertBy {x y : α} {ys : List α}
    (h : x ∈ insertBy key y ys) : x = y ∨ x ∈ ys := by
  induction ys with
  | nil => exact .inl (List.mem_singleton.mp h)
  | cons z zs ih =>
    rw [insertBy] at h
    split at h
    · exact List.mem_cons.mp h
    · split at h
      · rcases List.mem_cons.mp h with h | h
        · exact .inl h
        · exact .inr (List.mem_cons_of_mem z h)
      · rcases List.mem_cons.mp h with rfl | h
        · exact .inr List.mem_cons_self
        · exact (ih h).imp_right (List.mem_cons_of_mem z)

theorem mem_insertBy_self (x : α) (ys : List α) : x ∈ insertBy key x ys := by
  induction ys with
  | nil => exact List.mem_singleton_self x
  | cons y ys ih =>
    rw [insertBy]
    split
    · exact List.mem_cons_self
    · split
      · exact List.mem_cons_self
      · exact List.mem_cons_of_mem y ih

/-- An entry only gives way to one with the same key. -/
theorem mem_insertBy_of_mem {x y : α} {ys : List α} (hy : y ∈ ys) (hkey : key x ≠ key y) :
    y ∈ insertBy key x ys := by
  induction ys with
  | nil => cases hy
  | cons z zs ih =>
    rw [insertBy]
    split
    · exact List.mem_cons_of_mem x hy
    · split
      next hsame =>
        rcases List.mem_cons.mp hy with rfl | hy
        · exact absurd hsame hkey
        · exact List.mem_cons_of_mem x hy
      next =>
        rcases List.mem_cons.mp hy with rfl | hy
        · exact List.mem_cons_self
        · exact List.mem_cons_of_mem z (ih hy)

/-- A keyed list holds nothing but the entries that it was made from. -/
theorem mem_of_mem_ofListBy {x : α} {xs : List α}
    (h : x ∈ ofListBy key xs) : x ∈ xs := by
  suffices hfold : ∀ acc, x ∈ xs.foldl (fun acc y => insertBy key y acc) acc →
      x ∈ acc ∨ x ∈ xs by
    exact (hfold [] h).resolve_left List.not_mem_nil
  clear h
  induction xs with
  | nil => exact fun acc h => .inl h
  | cons y ys ih =>
    intro acc h
    rcases ih _ h with h | h
    · rcases mem_of_mem_insertBy h with rfl | h
      · exact .inr List.mem_cons_self
      · exact .inl h
    · exact .inr (List.mem_cons_of_mem y h)

theorem pairwise_insertBy {x : α} {ys : List α} (h : ys.Pairwise fun a b => key a < key b) :
    (insertBy key x ys).Pairwise fun a b => key a < key b := by
  induction ys with
  | nil => exact List.pairwise_singleton _ x
  | cons y ys ih =>
    obtain ⟨hy, hys⟩ := List.pairwise_cons.mp h
    rw [insertBy]
    split
    next hbefore =>
      refine List.pairwise_cons.mpr ⟨fun z hz => ?_, h⟩
      rcases List.mem_cons.mp hz with rfl | hz
      · exact hbefore
      · exact String.lt_trans hbefore (hy z hz)
    next hbefore =>
      split
      next hsame => exact List.pairwise_cons.mpr ⟨fun z hz => hsame ▸ hy z hz, hys⟩
      next hother =>
        refine List.pairwise_cons.mpr ⟨fun z hz => ?_, ih hys⟩
        rcases mem_of_mem_insertBy hz with rfl | hz
        · exact String.not_le.mp fun hle =>
            hother (String.le_antisymm hle (String.not_lt.mp hbefore))
        · exact hy z hz

/-- The keys of a keyed list ascend. -/
theorem pairwise_ofListBy (xs : List α) :
    (ofListBy key xs).Pairwise fun a b => key a < key b := by
  suffices hfold : ∀ acc : List α, acc.Pairwise (fun a b => key a < key b) →
      (xs.foldl (fun acc x => insertBy key x acc) acc).Pairwise fun a b => key a < key b by
    exact hfold [] .nil
  induction xs with
  | nil => exact fun acc hacc => hacc
  | cons x xs ih => exact fun acc hacc => ih _ (pairwise_insertBy hacc)

theorem perm_insertBy {x : α} {ys : List α} (h : key x ∉ ys.map key) :
    (insertBy key x ys).Perm (x :: ys) := by
  induction ys with
  | nil => exact .refl _
  | cons y ys ih =>
    rw [List.map_cons, List.mem_cons, not_or] at h
    obtain ⟨hne, hys⟩ := h
    rw [insertBy, if_neg hne]
    split
    · exact .refl _
    · exact ((ih hys).cons y).trans (.swap x y ys)

/-- Entries with different keys are all kept. -/
theorem perm_ofListBy {xs : List α} (h : (xs.map key).Nodup) : (ofListBy key xs).Perm xs := by
  suffices hfold : ∀ acc : List α, ((acc ++ xs).map key).Nodup →
      (xs.foldl (fun acc x => insertBy key x acc) acc).Perm (acc ++ xs) by
    exact hfold [] h
  clear h
  induction xs with
  | nil =>
    intro acc _
    rw [List.append_nil]
    exact .refl acc
  | cons x xs ih =>
    intro acc hacc
    have hmoved : (acc ++ x :: xs).Perm (x :: acc ++ xs) := List.perm_middle
    have hkeys : ((x :: acc ++ xs).map key).Nodup := (hmoved.map key).nodup_iff.mp hacc
    have hfresh : key x ∉ acc.map key := by
      rw [List.cons_append, List.map_cons, List.nodup_cons, List.map_append] at hkeys
      exact fun hmem => hkeys.1 (List.mem_append_left _ hmem)
    have hinsert : (insertBy key x acc ++ xs).Perm (x :: acc ++ xs) :=
      (perm_insertBy hfresh).append_right xs
    have hnext := ih _ ((hinsert.map key).nodup_iff.mpr hkeys)
    exact hnext.trans (hinsert.trans hmoved.symm)

/-- The keyed list depends on the entries only, if their keys differ. -/
theorem ofListBy_eq_of_perm {xs ys : List α} (hperm : xs.Perm ys) (h : (xs.map key).Nodup) :
    ofListBy key xs = ofListBy key ys := by
  have h' : (ys.map key).Nodup := (hperm.map key).nodup_iff.mp h
  have hsame : (ofListBy key xs).Perm (ofListBy key ys) :=
    (perm_ofListBy h).trans (hperm.trans (perm_ofListBy h').symm)
  refine hsame.eq_of_pairwise ?_ (pairwise_ofListBy xs) (pairwise_ofListBy ys)
  intro a b _ _ hab hba
  exact absurd hab (String.lt_asymm hba)

end SearchFilter.Order
