import CrossDialect.Predicate
import CrossDialect.Proofs.Placeholders.Slots
import Mathlib.Data.List.Basic

/-!
The text of one predicate: its column, its operator, and the texts of its operands
arranged behind the operator. What a pass writes for the predicate is what it writes
for the operands in order.
-/

namespace CrossDialect

inductive Operator.Shape.Fits {α : Type} : Operator.Shape → List α → Prop where
  | nothing : Fits .nothing []
  | one (v : α) : Fits .one [v]
  | bounds (low high : α) : Fits .bounds [low, high]
  | list (v : α) (vs : List α) : Fits .list (v :: vs)

theorem Operator.fits_of_accepts {α : Type} {op : Operator} {vs : List α}
    (accepted : op.accepts vs.length = true) : op.shape.Fits vs := by
  unfold accepts at accepted
  cases shape : op.shape with
  | nothing =>
      rw [shape, Shape.accepts, beq_iff_eq, List.length_eq_zero_iff] at accepted
      rw [accepted]
      exact .nothing
  | one =>
      rw [shape, Shape.accepts, beq_iff_eq, List.length_eq_one_iff] at accepted
      rcases accepted with ⟨v, rfl⟩
      exact .one v
  | bounds =>
      rw [shape, Shape.accepts, beq_iff_eq, List.length_eq_two] at accepted
      rcases accepted with ⟨low, high, rfl⟩
      exact .bounds low high
  | list =>
      rw [shape] at accepted
      cases vs with
      | nil => simp [Shape.accepts] at accepted
      | cons v vs => exact .list v vs

/-- The texts of operands in their places behind an operator. -/
def Operator.Shape.arrange : Operator.Shape → List String → String
  | .one, [text] => " " ++ text
  | .bounds, [low, high] => " " ++ low ++ " AND " ++ high
  | .list, texts => " (" ++ ", ".intercalate texts ++ ")"
  | _, _ => ""

theorem Layout.write_values (t : Target) (q : Pass) (column : Option String) (vs : List Value) :
    (joined ", " (vs.map fun v => [.value column v])).write t q =
      (", ".intercalate (q.writeAll t vs column).1, (q.writeAll t vs column).2) := by
  induction vs generalizing q with
  | nil => rfl
  | cons v vs ih =>
      cases vs with
      | nil => simp [joined, write, Piece.write, Pass.writeAll]
      | cons w vs =>
          have behind := ih (q.write t v column).2
          simp only [List.map_cons] at behind ⊢
          simp [joined, write, Piece.write, behind, Pass.writeAll, String.append_assoc]

def Predicate.operandTexts (t : Target) (q : Pass) (p : Predicate) : List String :=
  (q.writeAll t p.operands (some p.column)).1

theorem Predicate.write_right (t : Target) (q : Pass) (p : Predicate)
    (accepted : p.op.accepts p.operands.length = true) :
    (p.right.write t q).1 = p.op.shape.arrange (p.operandTexts t q) := by
  have fits := Operator.fits_of_accepts accepted
  unfold right operandTexts operand
  generalize p.op.shape = shape at fits ⊢
  generalize p.operands = operands at fits ⊢
  cases fits with
  | nothing => simp [Layout.write, Operator.Shape.arrange]
  | one v => simp [Layout.write, Piece.write, Pass.writeAll, Operator.Shape.arrange]
  | bounds low high =>
      simp [Layout.write, Piece.write, Pass.writeAll, Operator.Shape.arrange, String.append_assoc]
  | list v vs =>
      have opening : " (" = " " ++ "(" := rfl
      simp only [Layout.write, Piece.write, Layout.write_parenthesized, Layout.write_values,
        Operator.Shape.arrange, opening, String.append_assoc]

theorem Predicate.write_layout (t : Target) (q : Pass) (p : Predicate)
    (accepted : p.op.accepts p.operands.length = true) :
    (p.layout.write t q).1 =
      "(" ++ (t.quoteIdentifier p.column ++ " " ++ p.op.sql ++
        p.op.shape.arrange (p.operandTexts t q)) ++ ")" := by
  rw [layout, Layout.write_parenthesized]
  simp [Layout.write, Piece.write, p.write_right t q accepted, String.append_assoc]

end CrossDialect
