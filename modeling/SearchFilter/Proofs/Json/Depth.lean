import SearchFilter.Proofs.Json.Nesting

/-!
# What the reader reads is not too deep

Whatever the machine holds fits below the containers that are open around it, so a document is read
as a value that is nested no deeper than the limit.
-/

namespace SearchFilter

namespace Json

/-! ## Depth -/

theorem depthOfAll_le_iff {es : List Json} {k : Nat} :
    depthOfAll es ≤ k ↔ ∀ e ∈ es, e.depth ≤ k := by
  induction es with
  | nil => simp [depthOfAll]
  | cons e es ih => rw [depthOfAll, Nat.max_le, ih, List.forall_mem_cons]

theorem depthOfMembers_le_iff {ms : List Member} {k : Nat} :
    depthOfMembers ms ≤ k ↔ ∀ m ∈ ms, m.value.depth ≤ k := by
  induction ms with
  | nil => simp [depthOfMembers]
  | cons m ms ih =>
    obtain ⟨name, v⟩ := m
    rw [depthOfMembers, Nat.max_le, ih, List.forall_mem_cons]

theorem depth_le_of_mem {e : Json} {es : List Json} (h : e ∈ es) : e.depth ≤ depthOfAll es :=
  depthOfAll_le_iff.mp (Nat.le_refl _) e h

theorem depth_le_of_mem_members {m : Member} {ms : List Member} (h : m ∈ ms) :
    m.value.depth ≤ depthOfMembers ms :=
  depthOfMembers_le_iff.mp (Nat.le_refl _) m h

theorem depthOfAll_reverse_le (es : List Json) : depthOfAll es.reverse ≤ depthOfAll es :=
  depthOfAll_le_iff.mpr fun _ he => depth_le_of_mem (List.mem_reverse.mp he)

theorem depth_ofMembers_le (ms : List Member) :
    (ofMembers ms.reverse).depth ≤ depthOfMembers ms + 1 := by
  refine Nat.succ_le_succ (depthOfMembers_le_iff.mpr fun m hm => ?_)
  exact depth_le_of_mem_members (List.mem_reverse.mp (Order.mem_of_mem_ofListBy hm))

/-! ## Tokens -/

/-- Nothing is nested in the value that a token brings. -/
def Token.IsFlat : Token → Prop
  | .scalar v => v.depth = 0
  | _ => True

theorem Token.isFlat_of_ofChar? {c : Char} {t : Token} (h : ofChar? c = some t) : t.IsFlat := by
  unfold ofChar? at h
  split at h <;> cases h <;> trivial

theorem Token.isFlat_of_ofBare? {cs : List Char} {t : Token} (h : ofBare? cs = some t) :
    t.IsFlat := by
  unfold ofBare? at h
  split at h
  · cases h
    rfl
  split at h
  · cases h
    rfl
  split at h
  · cases h
    rfl
  · obtain ⟨n, -, rfl⟩ := Option.map_eq_some_iff.mp h
    rfl

theorem Token.isFlat_of_readAll {cs : List Char} {ts : List Token} (h : readAll cs = some ts) :
    ∀ t ∈ ts, t.IsFlat := by
  fun_induction readAll cs generalizing ts with
  | case1 =>
    cases h
    simp
  | case2 c rest hspace ih => exact ih h
  | case3 rest _ s after _ _ ih =>
    obtain ⟨us, hus, rfl⟩ := Option.map_eq_some_iff.mp h
    exact List.forall_mem_cons.mpr ⟨trivial, ih hus⟩
  | case4 => cases h
  | case5 c rest _ _ t hchar ih =>
    obtain ⟨us, hus, rfl⟩ := Option.map_eq_some_iff.mp h
    exact List.forall_mem_cons.mpr ⟨isFlat_of_ofChar? hchar, ih hus⟩
  | case6 c rest _ _ _ _ _ t hbare ih =>
    obtain ⟨us, hus, rfl⟩ := Option.map_eq_some_iff.mp h
    exact List.forall_mem_cons.mpr ⟨isFlat_of_ofBare? hbare, ih hus⟩
  | case7 => cases h
  | case8 => cases h

/-! ## The machine -/

section

variable {P : State → Prop}

/-- What every step keeps holds after a run. -/
theorem State.of_run
    (hstep : ∀ {s s' : State} {t : Token}, P s → t.IsFlat → s.step t = some s' → P s')
    {ts : List Token} {s s' : State} (hs : P s) (ht : ∀ t ∈ ts, t.IsFlat)
    (h : s.run ts = some s') : P s' := by
  induction ts generalizing s with
  | nil =>
    cases h
    exact hs
  | cons t ts ih =>
    obtain ⟨hfirst, hrest⟩ := List.forall_mem_cons.mp ht
    obtain ⟨u, hu, hrun⟩ := Option.bind_eq_some_iff.mp h
    exact ih (hstep hs hfirst hu) hrest hrun

/-- What holds at the start and is kept by every step holds of the value that is read. -/
theorem State.of_parse? {document : String} {v : Json} (hstart : P (.value []))
    (hstep : ∀ {s s' : State} {t : Token}, P s → t.IsFlat → s.step t = some s' → P s')
    (h : parse? document = some v) : P (.done v) := by
  obtain ⟨ts, hts, h⟩ := Option.bind_eq_some_iff.mp h
  rw [ofTokens?] at h
  split at h
  next v' hrun =>
    cases h
    exact State.of_run hstep hstart (Token.isFlat_of_readAll hts) hrun
  next => cases h

end

/-- The depth of the deepest value in an open container. -/
def Frame.depth : Frame → Nat
  | .array es => depthOfAll es
  | .object ms _ => depthOfMembers ms

/-- What every open container holds fits below it and the containers around it. -/
def StackFits : List Frame → Prop
  | [] => True
  | f :: stack => f.depth + stack.length < depthLimit ∧ StackFits stack

theorem StackFits.length_le {stack : List Frame} (h : StackFits stack) :
    stack.length ≤ depthLimit := by
  cases stack with
  | nil => exact Nat.zero_le _
  | cons f stack =>
    have hroom := h.1
    rw [List.length_cons]
    omega

namespace State

/-- Everything that was read so far fits below the containers around it. -/
def Fits : State → Prop
  | .value stack => StackFits stack
  | .arrayStart stack => StackFits (.array [] :: stack)
  | .objectStart stack => StackFits (.array [] :: stack)
  | .afterElement es stack => StackFits (.array es :: stack)
  | .afterMember ms stack => StackFits (.object ms "" :: stack)
  | .nextName ms stack => StackFits (.object ms "" :: stack)
  | .colon ms _ stack => StackFits (.object ms "" :: stack)
  | .done v => v.depth ≤ depthLimit

theorem fits_deliver {v : Json} {stack : List Frame} (hstack : StackFits stack)
    (hroom : v.depth + stack.length ≤ depthLimit) : (deliver v stack).Fits := by
  cases stack with
  | nil => exact hroom
  | cons f stack =>
    obtain ⟨hf, hstack⟩ := hstack
    rw [List.length_cons] at hroom
    cases f with
    | array es =>
      refine ⟨?_, hstack⟩
      simp only [Frame.depth, depthOfAll] at hf ⊢
      omega
    | object ms name =>
      refine ⟨?_, hstack⟩
      simp only [Frame.depth, depthOfMembers] at hf ⊢
      omega

theorem fits_startValue {stack : List Frame} {t : Token} {s : State} (hstack : StackFits stack)
    (ht : t.IsFlat) (h : startValue stack t = some s) : s.Fits := by
  have hlength := hstack.length_le
  cases t with
  | scalar v =>
    cases h
    have hflat : v.depth = 0 := ht
    exact fits_deliver hstack (by omega)
  | text s =>
    cases h
    exact fits_deliver hstack (by simpa [depth] using hlength)
  | arrayOpen =>
    rw [startValue] at h
    split at h
    next hroom =>
      cases h
      exact ⟨by simpa [Frame.depth, depthOfAll] using hroom, hstack⟩
    next => cases h
  | objectOpen =>
    rw [startValue] at h
    split at h
    next hroom =>
      cases h
      exact ⟨by simpa [Frame.depth, depthOfAll] using hroom, hstack⟩
    next => cases h
  | _ => cases h

/-- A container that is closed is one level deeper than what it holds. -/
theorem fits_close {f : Frame} {v : Json} {stack : List Frame} (h : StackFits (f :: stack))
    (hv : v.depth ≤ f.depth + 1) : (deliver v stack).Fits := by
  have hroom := h.1
  exact fits_deliver h.2 (by omega)

/-- Every step keeps what was read in its bounds. -/
theorem fits_step {s s' : State} {t : Token} (hs : s.Fits) (ht : t.IsFlat)
    (h : s.step t = some s') : s'.Fits := by
  revert h
  fun_cases step s t with
  | case1 stack => exact fits_startValue hs ht
  | case2 stack =>
    rintro ⟨⟩
    exact fits_close hs (Nat.le_refl _)
  | case3 stack => exact fits_startValue hs ht
  | case4 stack =>
    rintro ⟨⟩
    exact fits_close hs (Nat.le_refl _)
  | case7 es stack =>
    rintro ⟨⟩
    exact fits_close hs (Nat.succ_le_succ (depthOfAll_reverse_le es))
  | case9 ms stack =>
    rintro ⟨⟩
    exact fits_close hs (depth_ofMembers_le ms)
  -- A comma, a colon or a name leaves the values as they are.
  | case5 | case6 | case8 | case10 | case11 =>
    rintro ⟨⟩
    exact hs
  | case12 => exact fun h => nomatch h

end State

/-- A document is read as a value that is nested no deeper than the limit. -/
theorem depth_le_of_parse? {document : String} {v : Json} (h : parse? document = some v) :
    v.depth ≤ depthLimit :=
  State.of_parse? (P := State.Fits) trivial State.fits_step h

end Json

end SearchFilter
