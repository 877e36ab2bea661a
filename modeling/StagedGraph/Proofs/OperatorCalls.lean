import Mathlib.Algebra.Group.Nat.Defs
import StagedGraph.Operators
import StagedGraph.Proofs.BigSteps

/-!
# Calls of operators

The operators compute with integers exactly or not at all. So what a call of one of them comes to is
said in terms of the integers themselves: a value of 64 bits is the result if and only if it is the
exact one (`int64?_eq_some_iff`), and there is none only where the exact one has no place
(`int64?_eq_none_iff`). A program that has registered an operator calls it like any other native
(`Evaluates.operator`), and the host does not notice.
-/

namespace StagedGraph

/-! ### Integers in 64 bits -/

/-- The integer that is put into 64 bits is the one that comes out again. -/
theorem int64?_eq_some_iff {m : Int} {c : Int64} : int64? m = some c ↔ c.toInt = m := by
  unfold int64?
  constructor
  · intro h
    split at h
    · next hm =>
      cases h
      exact Int64.toInt_ofInt_of_le hm.1 (Int.lt_add_one_of_le hm.2)
    · cases h
  · rintro rfl
    rw [if_pos ⟨c.minValue_le_toInt, c.toInt_le⟩, Int64.ofInt_toInt]

theorem int64?_eq_none_iff {m : Int} :
    int64? m = none ↔ m < Int64.minValue.toInt ∨ Int64.maxValue.toInt < m := by
  by_cases hm : Int64.minValue.toInt ≤ m ∧ m ≤ Int64.maxValue.toInt
  · rw [int64?, if_pos hm, eq_false (Option.some_ne_none _), false_iff]
    omega
  · rw [int64?, if_neg hm, eq_self, true_iff]
    omega

/-! ### Operators on integers -/

variable {R H : Type} [Scalar R]

namespace Operator

theorem native_op (o : Operator) (args : List (Value R)) (host : H) :
    o.native.op args host =
      (match o.eval args with
        | .ok v => .value v
        | .error message => .failed message, host) := rfl

/-- A count below `2 ^ 63` is itself in 64 bits. -/
theorem toInt_count {n : Nat} (h : n < 2 ^ 63) : (Int64.ofNat n).toInt = n :=
  Int64.toInt_ofNat_of_lt h

omit [Scalar R] in
theorem operands_ints (o : Operator) (a b : Int64) :
    o.operands [.int a, (.int b : Value R)] = .ok (.int a, .int b) := rfl

variable (o : Operator) {onInt : Int → Int → Int} (onFloat : R → R → R) {a b n : Int64}

/-- Arithmetic on two integers whose result has a place in 64 bits. -/
theorem arith_ints (h : int64? (onInt a.toInt b.toInt) = some n) :
    arith o onInt onFloat [.int a, .int b] = .ok (.int n) := by
  rw [arith, operands_ints]
  simp only [h]

/-- Arithmetic on two integers whose result has no place in 64 bits. -/
theorem arith_overflow (h : int64? (onInt a.toInt b.toInt) = none) :
    arith o onInt onFloat [.int a, .int b] = .error s!"integer overflow in `{o.name}`" := by
  rw [arith, operands_ints]
  simp only [h]

/-- The sum of two integers is the exact one. -/
theorem eval_add_ints (h : n.toInt = a.toInt + b.toInt) :
    add.eval [.int a, (.int b : Value R)] = .ok (.int n) :=
  arith_ints add (· + ·) (int64?_eq_some_iff.2 h)

theorem eval_add_overflow (h : Int64.maxValue.toInt < a.toInt + b.toInt) :
    add.eval [.int a, (.int b : Value R)] = .error "integer overflow in `add`" :=
  arith_overflow add (· + ·) (int64?_eq_none_iff.2 (.inr h))

theorem eval_sub_ints (h : n.toInt = a.toInt - b.toInt) :
    sub.eval [.int a, (.int b : Value R)] = .ok (.int n) :=
  arith_ints sub (· - ·) (int64?_eq_some_iff.2 h)

/-- Adding one to a count that has room for it. -/
theorem eval_add_one {n : Nat} (h : n + 1 < 2 ^ 63) :
    add.eval [.int (Int64.ofNat n), (.int 1 : Value R)] = .ok (.int (Int64.ofNat (n + 1))) := by
  refine eval_add_ints ?_
  rw [toInt_count h, toInt_count (by omega)]
  rfl

/-- Counts compare as the natural numbers that they are. -/
theorem eval_lt_counts {m n : Nat} (hm : m < 2 ^ 63) (hn : n < 2 ^ 63) :
    lt.eval [.int (Int64.ofNat m), (.int (Int64.ofNat n) : Value R)] =
      .ok (.bool (decide (m < n))) := by
  change Except.ok (Value.bool (compare (Int64.ofNat m).toInt (Int64.ofNat n).toInt).isLT) = _
  have hcompare : (compare (m : Int) n).isLT = decide (m < n) := by
    rw [Bool.eq_iff_iff, Ordering.isLT_iff_eq_lt, Int.compare_eq_lt, decide_eq_true_iff,
      Int.ofNat_lt]
  rw [toInt_count hm, toInt_count hn, hcompare]

theorem eval_le_ints (a b : Int64) :
    le.eval [.int a, (.int b : Value R)] = .ok (.bool (decide (a.toInt ≤ b.toInt))) := by
  change Except.ok (Value.bool (compare a.toInt b.toInt).isLE) = _
  have hcompare : (compare a.toInt b.toInt).isLE = decide (a.toInt ≤ b.toInt) := by
    rw [Bool.eq_iff_iff, decide_eq_true_iff, Int.isLE_compare]
  rw [hcompare]

end Operator

/-! ### Calls -/

/-- A call of an operator, in a program that registers the operators before all other natives. -/
def Term.operator (o : Operator) (a b : Term R) : Term R := .invoke (.native ⟨o.index⟩) [a, b]

theorem native_of_natives_eq {p : Program R H}
    (h : p.natives = (Operator.all.map Operator.native).toArray) (o : Operator) :
    p.native ⟨o.index⟩ = o.native := by
  rw [Program.native, h]
  cases o <;> rfl

namespace Evaluates

variable {p : Program R H} {mode : LoopScope} {n : NativeId} {o : Operator} {terms : List (Term R)}
  {vs : List (Value R)} {s t : RunState R H}

theorem accepts_operator (hn : p.native n = o.native) (harity : vs.length = 2) :
    (p.native n).arity.accepts vs.length = true := by
  rw [hn]
  exact beq_iff_eq.2 harity.symm

/-- An operator that has a result. -/
theorem operator {v : Value R} (hn : p.native n = o.native) (hargs : EvaluatesAll p mode terms s vs t)
    (harity : vs.length = 2) (ho : o.eval vs = .ok v) :
    Evaluates p mode (.invoke (.native n) terms) s (.ok v)
      { t with history := .called n vs (.value v) :: t.history } := by
  have hop : (p.native n).op vs t.host = (.value v, t.host) := by rw [hn, Operator.native_op, ho]
  exact Evaluates.native hargs (accepts_operator hn harity) hop

/-- An operator that refuses its arguments. -/
theorem operator_error {message : String} (hn : p.native n = o.native)
    (hargs : EvaluatesAll p mode terms s vs t) (harity : vs.length = 2)
    (ho : o.eval vs = .error message) :
    Evaluates p mode (.invoke (.native n) terms) s
      (.error (.error (.ofFault (.native o.name message))))
      { t with history := .called n vs (.failed message) :: t.history } := by
  have hop : (p.native n).op vs t.host = (.failed message, t.host) := by
    rw [hn, Operator.native_op, ho]
  have h := Evaluates.native hargs (accepts_operator hn harity) hop
  rwa [hn] at h

end Evaluates

end StagedGraph
