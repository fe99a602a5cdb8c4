import SearchFilter.Tree.Basic

/-!
# Equality of trees

Two trees are compared part by part; the comparison holds exactly for equal trees.
-/

namespace SearchFilter

mutual

/-- The nodes are equal. -/
def Node.beq : Node → Node → Bool
  | .rule ⟨i, f, t, o, vs, p⟩, .rule ⟨i', f', t', o', vs', p'⟩ =>
    i == i' && f == f' && t == t' && o == o' && p == p' && Value.beqAll vs vs'
  | .condition ⟨i, j, b, cs⟩, .condition ⟨i', j', b', cs'⟩ =>
    i == i' && j == j' && b == b' && Node.beqAll cs cs'
  | _, _ => false

/-- The nodes are equal one by one. -/
def Node.beqAll : List Node → List Node → Bool
  | [], [] => true
  | n :: ns, n' :: ns' => n.beq n' && Node.beqAll ns ns'
  | _, _ => false

/-- The values are equal one by one. -/
def Value.beqAll : List Value → List Value → Bool
  | [], [] => true
  | v :: vs, v' :: vs' => v.beq v' && Value.beqAll vs vs'
  | _, _ => false

/-- The values are equal. -/
def Value.beq : Value → Value → Bool
  | .literal s, .literal s' => s == s'
  | .query n, .query n' => n.beq n'
  | _, _ => false

end

mutual

theorem Node.beq_iff (a b : Node) : a.beq b = true ↔ a = b := by
  match a, b with
  | .rule ⟨i, f, t, o, vs, p⟩, .rule ⟨i', f', t', o', vs', p'⟩ =>
    simp [Node.beq, Value.beqAll_iff vs vs', and_assoc]
    grind
  | .condition ⟨i, j, b, cs⟩, .condition ⟨i', j', b', cs'⟩ =>
    simp [Node.beq, Node.beqAll_iff cs cs', and_assoc]
  | .rule _, .condition _ => simp [Node.beq]
  | .condition _, .rule _ => simp [Node.beq]

theorem Node.beqAll_iff (a b : List Node) : Node.beqAll a b = true ↔ a = b := by
  match a, b with
  | [], [] => simp [Node.beqAll]
  | n :: ns, n' :: ns' => simp [Node.beqAll, Node.beq_iff n n', Node.beqAll_iff ns ns']
  | [], _ :: _ => simp [Node.beqAll]
  | _ :: _, [] => simp [Node.beqAll]

theorem Value.beqAll_iff (a b : List Value) : Value.beqAll a b = true ↔ a = b := by
  match a, b with
  | [], [] => simp [Value.beqAll]
  | v :: vs, v' :: vs' => simp [Value.beqAll, Value.beq_iff v v', Value.beqAll_iff vs vs']
  | [], _ :: _ => simp [Value.beqAll]
  | _ :: _, [] => simp [Value.beqAll]

theorem Value.beq_iff (a b : Value) : a.beq b = true ↔ a = b := by
  match a, b with
  | .literal s, .literal s' => simp [Value.beq]
  | .query n, .query n' => simp [Value.beq, Node.beq_iff n n']
  | .literal _, .query _ => simp [Value.beq]
  | .query _, .literal _ => simp [Value.beq]

end

instance : DecidableEq Node := fun a b =>
  decidable_of_iff _ (Node.beq_iff a b)

end SearchFilter
