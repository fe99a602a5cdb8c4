import SearchFilter.Json.Parser
import SearchFilter.Proofs.Json.Lexing

/-!
# How deep the reader goes

The machine takes the tokens of a value exactly if no container of the value is opened inside as
many open ones as the limit allows. It holds the members of each object in the order of their names.
-/

namespace SearchFilter.Json

mutual

/-- The value as a reader holds it: the members of every object in the order of their names. -/
def ordered : Json → Json
  | .array es => .array (orderedAll es)
  | .object ms => ofMembers (orderedMembers ms)
  | v => v

/-- The values as a reader holds them. -/
def orderedAll : List Json → List Json
  | [] => []
  | e :: es => e.ordered :: orderedAll es

/-- The members with their values as a reader holds them. -/
def orderedMembers : List Member → List Member
  | [] => []
  | ⟨name, v⟩ :: ms => ⟨name, v.ordered⟩ :: orderedMembers ms

end

theorem orderedAll_eq_map (es : List Json) : orderedAll es = es.map ordered := by
  induction es with
  | nil => rfl
  | cons e es ih => rw [orderedAll, List.map_cons, ih]

/-- The member with its value as a reader holds it. -/
def Member.ordered (m : Member) : Member :=
  ⟨m.name, m.value.ordered⟩

theorem orderedMembers_eq_map (ms : List Member) : orderedMembers ms = ms.map Member.ordered := by
  induction ms with
  | nil => rfl
  | cons m ms ih =>
    obtain ⟨name, v⟩ := m
    rw [orderedMembers, List.map_cons, ih]
    rfl

mutual

/-- How deep arrays and objects are nested in the value, itself included. -/
def depth : Json → Nat
  | .array es => depthOfAll es + 1
  | .object ms => depthOfMembers ms + 1
  | _ => 0

/-- The depth of the deepest of the values. -/
def depthOfAll : List Json → Nat
  | [] => 0
  | e :: es => max e.depth (depthOfAll es)

/-- The depth of the deepest of the members' values. -/
def depthOfMembers : List Member → Nat
  | [] => 0
  | ⟨_, v⟩ :: ms => max v.depth (depthOfMembers ms)

end

namespace State

/-- An array that was just opened takes its first element like one that goes on. -/
theorem run_arrayStart (v : Json) (stack : List Frame) (ts : List Token) :
    run (.arrayStart stack) (v.tokens ++ ts)
      = run (.value (.array [] :: stack)) (v.tokens ++ ts) := by
  cases v with
  | array es => cases es <;> rfl
  | object ms => cases ms <;> rfl
  | _ => rfl

theorem run_objectStart (m : Member) (stack : List Frame) (ts : List Token) :
    run (.objectStart stack) (tokensOfMember m ++ ts)
      = run (.value (.object [] m.name :: stack)) (m.value.tokens ++ ts) := by
  cases m
  rfl

theorem run_nextMember (m : Member) (ms : List Member) (stack : List Frame) (ts : List Token) :
    run (.afterMember ms stack) (.comma :: (tokensOfMember m ++ ts))
      = run (.value (.object ms m.name :: stack)) (m.value.tokens ++ ts) := by
  cases m
  rfl

/-- A container is opened if the stack has room for it. -/
theorem run_open {stack : List Frame} {t : Token} {s : State}
    (h : startValue stack t = if stack.length < depthLimit then some s else none)
    (ts : List Token) : run (.value stack) (t :: ts)
      = if stack.length + 1 ≤ depthLimit then run s ts else none := by
  rw [run, step, h]
  by_cases hroom : stack.length + 1 ≤ depthLimit
  · rw [if_pos hroom, if_pos (Nat.lt_of_succ_le hroom), Option.bind_some]
  · rw [if_neg hroom, if_neg (fun hlt => hroom (Nat.succ_le_of_lt hlt)), Option.bind_none]

theorem run_arrayOpen (stack : List Frame) (ts : List Token) :
    run (.value stack) (.arrayOpen :: ts)
      = if stack.length + 1 ≤ depthLimit then run (.arrayStart stack) ts else none :=
  run_open rfl ts

theorem run_objectOpen (stack : List Frame) (ts : List Token) :
    run (.value stack) (.objectOpen :: ts)
      = if stack.length + 1 ≤ depthLimit then run (.objectStart stack) ts else none :=
  run_open rfl ts

@[simp] theorem deliver_array (v : Json) (es : List Json) (stack : List Frame) :
    deliver v (.array es :: stack) = .afterElement (v :: es) stack := rfl

@[simp] theorem deliver_object (v : Json) (ms : List Member) (name : String)
    (stack : List Frame) :
    deliver v (.object ms name :: stack) = .afterMember (⟨name, v⟩ :: ms) stack := rfl

/-- There is room for one value and for another exactly if there is for the deeper of them. -/
theorem ite_room {α : Type} (limit n a b : Nat) (x : Option α) :
    (if n + a ≤ limit then if n + b ≤ limit then x else none else none)
      = if n + max a b ≤ limit then x else none := by
  by_cases ha : n + a ≤ limit
  · have hboth : n + b ≤ limit ↔ n + max a b ≤ limit := by omega
    rw [if_pos ha, if_congr hboth rfl rfl]
  · rw [if_neg ha, if_neg (by omega)]

mutual

/-- The machine takes the tokens of a value that is not too deep for the containers around it, and
no others. -/
theorem run_tokens (v : Json) (stack : List Frame) (h : stack.length ≤ depthLimit)
    (ts : List Token) : run (.value stack) (v.tokens ++ ts)
      = if stack.length + v.depth ≤ depthLimit then run (deliver v.ordered stack) ts else none := by
  match v with
  -- A scalar opens nothing, so it only needs the room that the containers around it already have.
  | .null | .bool _ | .number _ | .string _ => exact (if_pos h).symm
  | .array [] => exact run_arrayOpen stack _
  | .array (e :: es) =>
    rw [tokens, List.cons_append, run_arrayOpen, List.append_assoc, List.append_assoc,
      run_arrayStart, depth, depthOfAll, ← Nat.add_assoc, Nat.add_right_comm]
    by_cases hroom : stack.length + 1 ≤ depthLimit
    · have hrest := run_tokensOfRest es stack hroom [e.ordered] ts
      rw [if_pos hroom, run_tokens e (.array [] :: stack) hroom, deliver_array, hrest,
        List.length_cons, ite_room]
      rfl
    · rw [if_neg hroom, if_neg (by omega)]
  | .object [] => exact run_objectOpen stack _
  | .object (⟨name, v⟩ :: ms) =>
    rw [tokens, List.cons_append, run_objectOpen, List.append_assoc, List.append_assoc,
      run_objectStart, depth, depthOfMembers, ← Nat.add_assoc, Nat.add_right_comm]
    by_cases hroom : stack.length + 1 ≤ depthLimit
    · have hrest := run_tokensOfMembers ms stack hroom [⟨name, v.ordered⟩] ts
      rw [if_pos hroom, run_tokens v (.object [] name :: stack) hroom, deliver_object, hrest,
        List.length_cons, ite_room]
      rfl
    · rw [if_neg hroom, if_neg (by omega)]

theorem run_tokensOfRest (es : List Json) (stack : List Frame)
    (h : stack.length + 1 ≤ depthLimit) (done : List Json) (ts : List Token) :
    run (.afterElement done stack) (tokensOfRest es ++ ([.arrayClose] ++ ts))
      = if stack.length + 1 + depthOfAll es ≤ depthLimit then
          run (deliver (.array (done.reverse ++ orderedAll es)) stack) ts
        else none := by
  match es with
  | [] =>
    rw [orderedAll, List.append_nil]
    exact (if_pos h).symm
  | e :: es =>
    have hrest := run_tokensOfRest es stack h (e.ordered :: done) ts
    rw [List.reverse_cons, ← List.append_cons] at hrest
    rw [tokensOfRest, List.cons_append, List.append_assoc, depthOfAll, orderedAll, ← ite_room,
      ← hrest, ← deliver_array]
    exact run_tokens e (.array done :: stack) h _

theorem run_tokensOfMembers (ms : List Member) (stack : List Frame)
    (h : stack.length + 1 ≤ depthLimit) (done : List Member) (ts : List Token) :
    run (.afterMember done stack) (tokensOfMembers ms ++ ([.objectClose] ++ ts))
      = if stack.length + 1 + depthOfMembers ms ≤ depthLimit then
          run (deliver (ofMembers (done.reverse ++ orderedMembers ms)) stack) ts
        else none := by
  match ms with
  | [] =>
    rw [orderedMembers, List.append_nil]
    exact (if_pos h).symm
  | ⟨name, v⟩ :: ms =>
    have hrest := run_tokensOfMembers ms stack h (⟨name, v.ordered⟩ :: done) ts
    rw [List.reverse_cons, ← List.append_cons] at hrest
    rw [tokensOfMembers, List.cons_append, List.append_assoc, run_nextMember, depthOfMembers,
      orderedMembers, ← ite_room, ← hrest, ← deliver_object]
    exact run_tokens v (.object done name :: stack) h _

end

end State

/-- The tokens of a value are read as the value, if it is not nested too deep. -/
theorem ofTokens?_tokens (v : Json) :
    ofTokens? v.tokens = if v.depth ≤ depthLimit then some v.ordered else none := by
  have hrun := State.run_tokens v [] (Nat.zero_le _) []
  rw [List.append_nil, List.length_nil, Nat.zero_add] at hrun
  rw [ofTokens?, hrun]
  by_cases hdepth : v.depth ≤ depthLimit
  · rw [if_pos hdepth, if_pos hdepth]
    rfl
  · rw [if_neg hdepth, if_neg hdepth]

/-- A document without numbers is read exactly if it is not nested too deep. -/
theorem parse?_render {v : Json} (h : v.NumberFree) :
    parse? (render v) = if v.depth ≤ depthLimit then some v.ordered else none := by
  rw [parse?, readAll_render h, Option.bind_some, ofTokens?_tokens]

end SearchFilter.Json
