import SearchFilter.Proofs.Operation.Lookup

/-!
# Collisions between registrations

No registry is made of registrations two of which claim the same rules at the same priority. The
check walks over them in the order of look-up, so of several collisions it reports the one that a
look-up would come to first, with the only earlier registration that takes part in it.
-/

namespace SearchFilter

theorem Signature.eq_iff {s t : Signature} :
    s = t ↔ s.type = t.type ∧ s.operation = t.operation := by
  cases s
  cases t
  simp

namespace Registration

/-- The registrations claim the same operation name for the same value type at the same priority,
and the first one was registered before the other. -/
structure Clash (a b : Registration × Nat) : Prop where
  lt : a.2 < b.2
  priority : a.1.priority = b.1.priority
  type : a.1.operation.signature.type = b.1.operation.signature.type
  operation : a.1.operation.signature.operation = b.1.operation.signature.operation

instance : Std.Symm fun a b : Registration × Nat => a.1.Apart b.1 where
  symm _ _ h := symm h

/-- Registrations of one priority are looked up in the order of registration. -/
theorem clash_iff_before {a b : Registration × Nat} :
    Clash a b ↔ Before a b ∧ b.1.collides a.1 = true := by
  rw [collides_comm, collides_iff, Signature.eq_iff, Before]
  constructor
  · rintro ⟨hlt, hpriority, htype, hoperation⟩
    exact ⟨.inr ⟨hpriority, hlt⟩, hpriority, htype, hoperation⟩
  · rintro ⟨hbefore, hpriority, htype, hoperation⟩
    exact ⟨by omega, hpriority, htype, hoperation⟩

/-- The check stops at the first registration that collides with an earlier one. -/
theorem collision?_eq_some {earlier rs : List Registration} {e r : Registration}
    (h : collision? earlier rs = some (e, r)) :
    ∃ before after, rs = before ++ r :: after ∧ collision? earlier before = none ∧
      (before.reverse ++ earlier).find? (collides r) = some e := by
  induction rs generalizing earlier with
  | nil => cases h
  | cons r' rest ih =>
    rw [collision?] at h
    split at h
    next e' hfound =>
      cases h
      exact ⟨[], rest, rfl, rfl, hfound⟩
    next hfree =>
      obtain ⟨before, after, rfl, hbefore, hfound⟩ := ih h
      refine ⟨r' :: before, after, rfl, ?_, ?_⟩
      · rw [collision?, hfree]
        exact hbefore
      · rw [List.reverse_cons, List.append_assoc]
        exact hfound

end Registration

namespace Registry

open Registration (Before Clash before_asymm before_trans clash_iff_before collides_iff)

/-- The two registrations are the first collision in the order of look-up: no other registration
before the second one collides with it, and the second one of any other collision comes later. -/
structure IsFirstClash (rs : List Registration) (a b : Registration × Nat) : Prop where
  mem_left : a ∈ rs.zipIdx
  mem_right : b ∈ rs.zipIdx
  clash : Clash a b
  only : ∀ a' ∈ rs.zipIdx, Clash a' b → a' = a
  first : ∀ a' ∈ rs.zipIdx, ∀ b' ∈ rs.zipIdx, Clash a' b' → b' ≠ b → Before b b'

theorem IsFirstClash.unique {rs : List Registration} {a b a' b' : Registration × Nat}
    (h : IsFirstClash rs a b) (h' : IsFirstClash rs a' b') : a = a' ∧ b = b' := by
  have hb : b = b' := by
    by_contra hne
    have hbefore : Before b b' :=
      h.first a' h'.mem_left b' h'.mem_right h'.clash fun heq => hne heq.symm
    exact before_asymm hbefore (h'.first a h.mem_left b h.mem_right h.clash hne)
  subst hb
  exact ⟨h'.only a h.mem_left h.clash, rfl⟩

/-- Where a walk comes to the first registration that collides with an earlier one, it has come to
the first collision. -/
theorem isFirstClash_of_walk {rs : List Registration} {earlier later : List (Registration × Nat)}
    {a b : Registration × Nat} (hwalk : walk rs = earlier ++ b :: later)
    (hapart : earlier.Pairwise fun a b => a.1.Apart b.1) (ha : a ∈ earlier)
    (hcollides : b.1.collides a.1 = true) : IsFirstClash rs a b := by
  have hsorted := pairwise_walk rs
  rw [hwalk, List.pairwise_append, List.pairwise_cons] at hsorted
  obtain ⟨-, ⟨hlater, -⟩, hearlier⟩ := hsorted
  have hmem (c : Registration × Nat) : c ∈ rs.zipIdx ↔ c ∈ earlier ∨ c = b ∨ c ∈ later := by
    rw [← mem_walk, hwalk, List.mem_append, List.mem_cons]
  -- Whatever is looked up before the second registration stands before it on the walk.
  have hbefore (c : Registration × Nat) (hc : c ∈ rs.zipIdx) (hcb : Before c b) : c ∈ earlier := by
    rcases (hmem c).mp hc with hc | rfl | hc
    · exact hc
    · exact absurd hcb (before_asymm hcb)
    · exact absurd hcb (before_asymm (hlater c hc))
  have hnone (c c' : Registration × Nat) (hc : c ∈ earlier) (hc' : c' ∈ earlier) (hne : c ≠ c') :
      c.1.collides c'.1 = false := hapart.forall hc hc' hne
  refine ⟨(hmem a).mpr (.inl ha), (hmem b).mpr (.inr (.inl rfl)), ?_, ?_, ?_⟩
  · exact clash_iff_before.mpr ⟨hearlier a ha b List.mem_cons_self, hcollides⟩
  · intro a' ha' hclash
    obtain ⟨hlt, hcollides'⟩ := clash_iff_before.mp hclash
    by_contra hne
    have hboth : a'.1.collides a.1 = true := by
      rw [collides_iff] at hcollides hcollides' ⊢
      exact ⟨hcollides'.1.symm.trans hcollides.1, hcollides'.2.symm.trans hcollides.2⟩
    rw [hnone a' a (hbefore a' ha' hlt) ha hne] at hboth
    cases hboth
  · intro a' ha' b' hb' hclash hne
    rcases (hmem b').mp hb' with hb' | rfl | hb'
    · obtain ⟨hlt, hcollides'⟩ := clash_iff_before.mp hclash
      have ha'' : a' ∈ earlier :=
        hbefore a' ha' (before_trans hlt (hearlier b' hb' b List.mem_cons_self))
      have hdistinct : b' ≠ a' := by
        rintro rfl
        exact before_asymm hlt hlt
      rw [hnone b' a' hb' ha'' hdistinct] at hcollides'
      cases hcollides'
    · exact absurd rfl hne
    · exact hlater b' hb'

theorem exists_isFirstClash_of_collision? {rs : List Registration} {e r : Registration}
    (h : Registration.collision? [] (ordered rs) = some (e, r)) :
    ∃ a b, IsFirstClash rs a b ∧ a.1 = e ∧ b.1 = r := by
  obtain ⟨before, after, hsplit, hbefore, hfound⟩ := Registration.collision?_eq_some h
  rw [← map_fst_walk] at hsplit
  obtain ⟨earlier, rest, hwalk, rfl, hrest⟩ := List.map_eq_append_iff.mp hsplit
  obtain ⟨b, later, rfl, rfl, rfl⟩ := List.map_eq_cons_iff.mp hrest
  rw [List.append_nil] at hfound
  have hcollides := List.find?_some hfound
  have hmem := List.mem_of_find?_eq_some hfound
  rw [List.mem_reverse, List.mem_map] at hmem
  obtain ⟨a, ha, rfl⟩ := hmem
  have hapart := (Registration.collision?_eq_none_iff.mp hbefore).2
  rw [List.pairwise_map] at hapart
  exact ⟨a, b, isFirstClash_of_walk hwalk hapart ha hcollides, rfl, rfl⟩

theorem exists_collision?_of_clash {rs : List Registration} {a b : Registration × Nat}
    (ha : a ∈ rs.zipIdx) (hb : b ∈ rs.zipIdx) (h : Clash a b) :
    ∃ p, Registration.collision? [] (ordered rs) = some p := by
  cases hcollision : Registration.collision? [] (ordered rs) with
  | some p => exact ⟨p, rfl⟩
  | none =>
    have hapart := (Registration.collision?_eq_none_iff.mp hcollision).2
    rw [← map_fst_walk, List.pairwise_map] at hapart
    obtain ⟨hbefore, hcollides⟩ := clash_iff_before.mp h
    have hne : b ≠ a := by
      rintro rfl
      exact before_asymm hbefore hbefore
    have hnone : b.1.collides a.1 = false := hapart.forall (mem_walk.mpr hb) (mem_walk.mpr ha) hne
    rw [hnone] at hcollides
    cases hcollides

theorem build_eq_error_iff {rs : List Registration} {e : QueryError} : build rs = .error e ↔
    ∃ first second, Registration.collision? [] (ordered rs) = some (first, second) ∧
      e = .ambiguousOperator second.operation.signature second.priority first.operation.name
        second.operation.name := by
  rw [build, ← ordered]
  split
  next first second h =>
    refine ⟨fun he => ⟨first, second, h, (Except.error.inj he).symm⟩, ?_⟩
    rintro ⟨first', second', h', rfl⟩
    cases h.symm.trans h'
    rfl
  next h => simp [h]

end Registry

/-- Registrations make no registry exactly if two of them collide, whatever rules their operations
apply to. The error is about the first collision in the order of look-up. -/
theorem Registry.build_fails_as_first_collision (rs : List Registration) :
    ((∃ e, build rs = .error e) ↔ ∃ a ∈ rs.zipIdx, ∃ b ∈ rs.zipIdx, Registration.Clash a b) ∧
    ∀ e, build rs = .error e ↔ ∃ a b, IsFirstClash rs a b ∧
      e = .ambiguousOperator b.1.operation.signature b.1.priority a.1.operation.name
        b.1.operation.name := by
  have herror (e : QueryError) : build rs = .error e ↔ ∃ a b, IsFirstClash rs a b ∧
      e = .ambiguousOperator b.1.operation.signature b.1.priority a.1.operation.name
        b.1.operation.name := by
    rw [build_eq_error_iff]
    constructor
    · rintro ⟨first, second, hcollision, he⟩
      obtain ⟨a, b, hfirst, rfl, rfl⟩ := exists_isFirstClash_of_collision? hcollision
      exact ⟨a, b, hfirst, he⟩
    · rintro ⟨a, b, hfirst, he⟩
      obtain ⟨⟨first, second⟩, hcollision⟩ :=
        exists_collision?_of_clash hfirst.mem_left hfirst.mem_right hfirst.clash
      obtain ⟨a', b', hfirst', rfl, rfl⟩ := exists_isFirstClash_of_collision? hcollision
      obtain ⟨rfl, rfl⟩ := hfirst.unique hfirst'
      exact ⟨a.1, b.1, hcollision, he⟩
  refine ⟨⟨?_, ?_⟩, herror⟩
  · rintro ⟨e, he⟩
    obtain ⟨a, b, hfirst, -⟩ := (herror e).mp he
    exact ⟨a, hfirst.mem_left, b, hfirst.mem_right, hfirst.clash⟩
  · rintro ⟨a, ha, b, hb, hclash⟩
    obtain ⟨⟨first, second⟩, hcollision⟩ := exists_collision?_of_clash ha hb hclash
    exact ⟨_, build_eq_error_iff.mpr ⟨first, second, hcollision, rfl⟩⟩

end SearchFilter
