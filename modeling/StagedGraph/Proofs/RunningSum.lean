import Mathlib.Data.List.Permutation
import Mathlib.Data.Nat.Choose.Basic
import Mathlib.Order.Monotone.Basic
import StagedGraph.Proofs.Levels
import StagedGraph.Proofs.OperatorCalls

/-!
# The running sum

A loop adds the numbers from one to `n` with the registered operators. After `k` iterations `sum` is
the `k`-th triangular number and `i` is `k + 1` (`SummedTo`), whether the iterations share the scope
around the loop or each has its own. As the operators are exact or fail, an iteration either gets to
`k + 1` or finds that the next triangular number has no place in 64 bits; and since these numbers only
grow, the second happens in some iteration just if the sum at the end has no place (`loop_executes`).
-/

namespace StagedGraph

/-- `sum = 0; i = 1; while i <= n { sum = add(sum, i); i = i + 1 }`. -/
def runningSum (R H : Type) [Scalar R] (n : Int64) : BlockId × Program R H :=
  let build : Build R H BlockId := do
    let ops ← Operators.register
    let sum ← Build.var "sum"
    let i ← Build.var "i"
    let zero ← Build.literal (.int 0)
    let one ← Build.literal (.int 1)
    let limit ← Build.literal (.int n)
    let cond ← Build.call (ops.id .le) [i.expr, limit]
    let body ← Build.block
    let next ← Build.call (ops.id .add) [sum.expr, i.expr]
    Build.push body (.assign sum.name next)
    let increment ← Build.increment i (ops.id .add)
    Build.push body increment
    let root ← Build.block
    Build.push root (.assign sum.name zero)
    Build.push root (.assign i.name one)
    Build.push root (.whileLoop cond body)
    return root
  build.run Program.empty

variable {R H : Type}

/-- How the program ends: with the sum and the number after `n`, which for a negative `n` are the zero
and the one of the start; or, if the sum has no place in 64 bits, with the error of the addition. -/
def EndsAsSum (n : Int64) (r : Except Stop (Bindings R)) : Prop :=
  if n.toInt < 0 then r = .ok [("i", .int 1), ("sum", .int 0)]
  else if n.toInt * (n.toInt + 1) / 2 ≤ Int64.maxValue.toInt then
    ∃ i sum : Int64, i.toInt = n.toInt + 1 ∧ sum.toInt = n.toInt * (n.toInt + 1) / 2 ∧
      r = .ok [("i", .int i), ("sum", .int sum)]
  else r = .error (.error (.ofFault (.native "add" "integer overflow in `add`")))

namespace RunningSum

/-! ### The text of the program -/

/-- The variable that holds the sum. -/
def sum : Name := ⟨1⟩

/-- The variable that counts. -/
def i : Name := ⟨2⟩

def condition (n : Int64) : Term R := .operator .le (.var i) (.literal (.int n))

def body : List (Code R) :=
  [.assign sum (.operator .add (.var sum) (.var i)),
    .assign i (.operator .add (.var i) (.literal (.int 1)))]

def text (n : Int64) : List (Code R) :=
  [.assign sum (.literal (.int 0)), .assign i (.literal (.int 1)), .whileLoop (condition n) body]

section Text

variable [Scalar R] (n : Int64)

theorem text_at : Code.AtBlock (runningSum R H n).2 (text n) (runningSum R H n).1 := by
  have htext : (runningSum R H n).2.blockCode? 4 (runningSum R H n).1 = some (text n) := by cbv
  exact Program.blockCode?_at htext

theorem native_eq (o : Operator) : (runningSum R H n).2.native ⟨o.index⟩ = o.native :=
  native_of_natives_eq (by cbv) o

theorem verify_eq : (runningSum R H n).2.verify (runningSum R H n).1 = .ok () := by cbv

end Text

/-! ### What is bound -/

/-- The two variables are bound, in the global scope. -/
def bound (a b : Int64) : Environment R :=
  (Environment.empty.assign sum (.int a)).assign i (.int b)

/-- Both variables are found from the scope that an iteration may have of its own. -/
theorem lookup_bound {env : Environment R} {a b : Int64}
    (h : env = bound a b ∨ env = (bound a b).push .block) :
    env.lookup sum = some (.int a) ∧ env.lookup i = some (.int b) := by
  rcases h with rfl | rfl <;> exact ⟨rfl, rfl⟩

theorem assign_bound (a b c d : Int64) :
    ((bound a b : Environment R).assign sum (.int c)).assign i (.int d) = bound c d := rfl

theorem assign_bound_push (a b c d : Int64) :
    ((((bound a b : Environment R).push .block).assign sum (.int c)).assign i (.int d)).pop =
      bound c d := rfl

theorem named_bound [Scalar R] (n a b : Int64) :
    (runningSum R H n).2.interner.named (bound a b : Environment R).globals =
      [("i", .int b), ("sum", .int a)] := by
  cbv

/-! ### Triangular numbers -/

/-- The sum of the numbers up to `k`. -/
def triangle (k : Nat) : Nat := k * (k + 1) / 2

theorem triangle_succ (k : Nat) : triangle (k + 1) = triangle k + (k + 1) := by
  have h := Nat.triangle_succ (k + 1)
  rw [Nat.add_sub_cancel, Nat.add_sub_cancel, Nat.mul_comm (k + 1 + 1), Nat.mul_comm (k + 1) k] at h
  exact h

theorem triangle_mono : Monotone triangle :=
  monotone_nat_of_le_succ fun k => by rw [triangle_succ]; omega

/-- From the third on, a triangular number is larger than its own number. -/
theorem lt_triangle {k : Nat} (hk : 2 ≤ k) : k < triangle k := by
  induction k, hk using Nat.le_induction with
  | base => decide
  | succ k _ ih =>
    rw [triangle_succ]
    omega

/-- Where a triangular number has a place in 64 bits, the number after its own has one too. -/
theorem succ_lt_of_triangle_le {k : Nat} (h : (triangle (k + 1) : Int) ≤ Int64.maxValue.toInt) :
    k + 1 + 1 < 2 ^ 63 := by
  rcases Nat.eq_zero_or_pos k with rfl | hk
  · decide
  · have hlt : k + 1 < triangle (k + 1) := lt_triangle (by omega)
    rw [Int64.toInt_maxValue] at h
    omega

theorem triangle_toNat {n : Int} (h : 0 ≤ n) : (triangle n.toNat : Int) = n * (n + 1) / 2 := by
  rw [triangle, Int.natCast_ediv, Int.natCast_mul, Int.natCast_succ, Int.toNat_of_nonneg h]
  rfl

/-! ### One iteration -/

/-- Why the run stops if the sum has no place. -/
def overflow : Stop := .error (.ofFault (.native "add" "integer overflow in `add`"))

/-- After `k` iterations: the sum of the numbers up to `k`, and the number after `k`. -/
def SummedTo (host : H) (k : Nat) (s : RunState R H) : Prop :=
  s.host = host ∧ ∃ a b : Int64, a.toInt = triangle k ∧ b.toInt = k + 1 ∧ s.env = bound a b

section Iterations

variable [Scalar R] {p : Program R H} {s : RunState R H} {a b c d n : Int64} {host : H} {k : Nat}
  (hp : ∀ o : Operator, p.native ⟨o.index⟩ = o.native) (mode : LoopScope)

include hp

theorem condition_tests (n : Int64) (h : SummedTo host k s) :
    ∃ t, Tests p mode (condition n) s (decide ((k : Int) + 1 ≤ n.toInt)) t ∧ SummedTo host k t := by
  obtain ⟨hhost, a, b, ha, hb, henv⟩ := h
  have hi := (lookup_bound (.inl henv)).2
  have hle : Evaluates p mode (condition n) s _ _ := .operator (hp .le)
    (.cons (.var hi) (.cons (.literal (.int n)) .nil)) rfl (Operator.eval_le_ints b n)
  rw [hb] at hle
  exact ⟨_, .of_bool hle, hhost, a, b, ha, hb, henv⟩

theorem add_executes (x : Name) {u v : Term R} (hu : Evaluates p mode u s (.ok (.int a)) s)
    (hv : Evaluates p mode v s (.ok (.int b)) s) (hc : c.toInt = a.toInt + b.toInt) :
    ∃ t, Executes p mode (.assign x (.operator .add u v)) s (.ok .normal) t ∧
      t.env = s.env.assign x (.int c) ∧ t.host = s.host := by
  have hadd : Evaluates p mode (.operator .add u v) s _ _ :=
    .operator (hp .add) (.cons hu (.cons hv .nil)) rfl (Operator.eval_add_ints hc)
  exact ⟨_, .assign hadd, rfl, rfl⟩

/-- The body adds exactly, if both sums have a place. -/
theorem body_executes (h : s.env = bound a b ∨ s.env = (bound a b).push .block)
    (hc : c.toInt = a.toInt + b.toInt) (hd : d.toInt = b.toInt + 1) :
    ∃ t, ExecutesAll p mode body s (.ok .normal) t ∧
      t.env = (s.env.assign sum (.int c)).assign i (.int d) ∧ t.host = s.host := by
  obtain ⟨hsum, hi⟩ := lookup_bound h
  obtain ⟨t, hfirst, htenv, hthost⟩ := add_executes hp mode sum (.var hsum) (.var hi) hc
  have hti : t.env.lookup i = some (.int b) := by
    rw [htenv, Environment.lookup_assign, if_neg (by decide), hi]
  obtain ⟨u, hsecond, huenv, huhost⟩ := add_executes hp mode i (.var hti) (.literal (.int 1)) hd
  exact ⟨u, .cons hfirst (.single hsecond), htenv ▸ huenv, huhost.trans hthost⟩

/-- The body fails, if the first sum has no place. -/
theorem body_fails (h : s.env = bound a b ∨ s.env = (bound a b).push .block)
    (hover : Int64.maxValue.toInt < a.toInt + b.toInt) :
    ∃ t, ExecutesAll p mode body s (.error overflow) t ∧ t.host = s.host := by
  obtain ⟨hsum, hi⟩ := lookup_bound h
  have hadd : Evaluates p mode (.operator .add (.var sum) (.var i)) s _ _ := .operator_error (hp .add)
    (.cons (.var hsum) (.cons (.var hi) .nil)) rfl (Operator.eval_add_overflow hover)
  exact ⟨_, .last (.assign_error hadd) nofun, rfl⟩

/-- **One iteration adds the next number**, if the sum has a place. -/
theorem iterates_body (h : SummedTo host k s)
    (hroom : (triangle (k + 1) : Int) ≤ Int64.maxValue.toInt) :
    ∃ t, Iterates p mode body s (.ok .normal) t ∧ SummedTo host (k + 1) t := by
  obtain ⟨rfl, a, b, ha, hb, henv⟩ := h
  have hsucc := triangle_succ k
  obtain ⟨c, htriangle⟩ : ∃ c : Int64, c.toInt = triangle (k + 1) :=
    ⟨_, Operator.toInt_count (by rw [Int64.toInt_maxValue] at hroom; omega)⟩
  obtain ⟨d, hcount⟩ : ∃ d : Int64, d.toInt = (k + 1 : Nat) + 1 :=
    ⟨_, Operator.toInt_count (succ_lt_of_triangle_le hroom)⟩
  have hc : c.toInt = a.toInt + b.toInt := by omega
  have hd : d.toInt = b.toInt + 1 := by omega
  -- in a scope of its own an iteration binds nothing, as both names are bound around it
  cases mode with
  | shared =>
    obtain ⟨t, hbody, htenv, hthost⟩ := body_executes hp .shared (.inl henv) hc hd
    refine ⟨t, hbody, hthost, c, d, htriangle, hcount, ?_⟩
    rw [htenv, henv, assign_bound]
  | perIteration =>
    have hopened : s.opened.env = (bound a b).push .block := congrArg (Environment.push · .block) henv
    obtain ⟨t, hbody, htenv, hthost⟩ := body_executes hp .perIteration (.inr hopened) hc hd
    refine ⟨t.closed, ⟨t, hbody, rfl⟩, hthost, c, d, htriangle, hcount, ?_⟩
    rw [RunState.closed, htenv, hopened, assign_bound_push]

/-- An iteration fails, if the sum has no place. -/
theorem iterates_fails (h : SummedTo host k s) (hover : Int64.maxValue.toInt < triangle (k + 1)) :
    ∃ t, Iterates p mode body s (.error overflow) t ∧ t.host = host := by
  obtain ⟨rfl, a, b, ha, hb, henv⟩ := h
  have hsucc := triangle_succ k
  have hover : Int64.maxValue.toInt < a.toInt + b.toInt := by omega
  cases mode with
  | shared => exact body_fails hp .shared (.inl henv) hover
  | perIteration =>
    have hopened : s.opened.env = (bound a b).push .block := congrArg (Environment.push · .block) henv
    obtain ⟨t, hbody, hthost⟩ := body_fails hp .perIteration (.inr hopened) hover
    exact ⟨t.closed, ⟨t, hbody, rfl⟩, hthost⟩

/-! ### The loop -/

/-- The loop ends when `i` has passed `n`. -/
theorem loop_done (h : SummedTo host k s) (hn : n.toInt ≤ k) :
    ∃ t, Executes p mode (.whileLoop (condition n) body) s (.ok .normal) t ∧ SummedTo host k t := by
  obtain ⟨t, htest, ht⟩ := condition_tests hp mode n h
  rw [decide_eq_false (by omega)] at htest
  exact ⟨t, .while_done htest, ht⟩

/-- **The loop sums up to `n` or fails.** The induction is on the iterations that are left. -/
theorem loop_executes (h : SummedTo host k s) {left : Nat} (hn : n.toInt = (k + left : Nat)) :
    ∃ (r : Except Stop Unit) (t : RunState R H),
      Executes p mode (.whileLoop (condition n) body) s (r.map fun _ => .normal) t ∧ t.host = host ∧
        if (triangle (k + left) : Int) ≤ Int64.maxValue.toInt then
          r = .ok () ∧ SummedTo host (k + left) t
        else r = .error overflow := by
  induction left generalizing k s with
  | zero =>
    obtain ⟨t, hloop, ht⟩ := loop_done hp mode h (n := n) (by omega)
    have hroom : (triangle k : Int) ≤ Int64.maxValue.toInt := by
      obtain ⟨-, a, -, ha, -⟩ := h
      exact ha ▸ a.toInt_le
    refine ⟨.ok (), t, hloop, ht.1, ?_⟩
    rw [Nat.add_zero, if_pos hroom]
    exact ⟨rfl, ht⟩
  | succ left ih =>
    obtain ⟨t, htest, ht⟩ := condition_tests hp mode n h
    rw [decide_eq_true (by omega)] at htest
    by_cases hroom : (triangle (k + 1) : Int) ≤ Int64.maxValue.toInt
    · obtain ⟨u, hbody, hu⟩ := iterates_body hp mode ht hroom
      obtain ⟨r, v, hloop, hv⟩ := ih hu (by omega)
      rw [Nat.add_right_comm] at hv
      exact ⟨r, v, .while_next htest hbody hloop, hv⟩
    · obtain ⟨u, hbody, hu⟩ := iterates_fails hp mode ht (not_le.1 hroom)
      have hmono : triangle (k + 1) ≤ triangle (k + (left + 1)) := triangle_mono (by omega)
      refine ⟨.error overflow, u, .while_error htest hbody, hu, ?_⟩
      rw [if_neg (by omega)]

end Iterations

section Program

variable [Scalar R] (n : Int64) (mode : LoopScope) (host : H)

/-- From the start, the loop ends as it should. -/
theorem loop_ends {s : RunState R H} (h : SummedTo host 0 s) :
    ∃ (r : Except Stop Unit) (t : RunState R H), Executes (runningSum R H n).2 mode
      (.whileLoop (condition n) body) s (r.map fun _ => .normal) t ∧ t.host = host ∧
        EndsAsSum n (r.map fun _ => (runningSum R H n).2.interner.named t.env.globals) := by
  have hp := native_eq (R := R) (H := H) n
  by_cases hn : n.toInt < 0
  · obtain ⟨t, hloop, hhost, a, b, ha, hb, henv⟩ := loop_done hp mode h (n := n) (by omega)
    obtain rfl : a = 0 := Int64.toInt_inj.1 ha
    obtain rfl : b = 1 := Int64.toInt_inj.1 hb
    refine ⟨.ok (), t, hloop, hhost, ?_⟩
    rw [EndsAsSum, if_pos hn, henv]
    exact congrArg Except.ok (named_bound n 0 1)
  · have hleft : n.toInt = (0 + n.toInt.toNat : Nat) := by omega
    obtain ⟨r, t, hloop, hhost, hend⟩ := loop_executes hp mode h hleft
    refine ⟨r, t, hloop, hhost, ?_⟩
    rw [EndsAsSum, if_neg hn]
    rw [Nat.zero_add, triangle_toNat (not_lt.1 hn)] at hend
    split at hend
    · next hroom =>
      obtain ⟨rfl, -, a, b, ha, hb, henv⟩ := hend
      rw [triangle_toNat (not_lt.1 hn)] at ha
      rw [if_pos hroom, henv]
      exact ⟨b, a, by omega, ha, congrArg Except.ok (named_bound n a b)⟩
    · next hroom =>
      rw [if_neg hroom, hend]
      rfl

theorem run_settles : ∃ (r : Except Stop Unit) (t : RunState R H),
    Settles (fun fuel => Interpreter.run (runningSum R H n).2 mode fuel (runningSum R H n).1)
      (.fresh host) r t ∧ t.host = host ∧
        EndsAsSum n (r.map fun _ => (runningSum R H n).2.interner.named t.env.globals) := by
  have hstart : SummedTo host 0
      (((RunState.fresh host).assigned sum (.int 0)).assigned i (.int 1) : RunState R H) :=
    ⟨rfl, 0, 1, rfl, rfl, rfl⟩
  obtain ⟨r, t, hloop, hhost, hend⟩ := loop_ends n mode host hstart
  have hroot : ExecutesAll _ mode (text n) _ _ t :=
    .cons (.assign (.literal (.int 0))) (.cons (.assign (.literal (.int 1))) (.single hloop))
  refine ⟨r, t, ?_, hhost, hend⟩
  cases r with
  | ok u => exact .run (text_at n) hroot
  | error why => exact .run_error (text_at n) hroot

end Program

end RunningSum

open RunningSum

/-- **The running sum is exact or fails.** For every `n` and either policy for the scopes of loops,
the program ends if it has enough fuel, and it leaves the host as it was. If `n` is negative, then
`sum` is zero and `i` is one. If the sum of the numbers up to `n` has a place in 64 bits, then it is
in `sum`, and `i` is the number after `n`. Otherwise the program fails for an overflow of the
addition. -/
theorem runningSum_ends [Scalar R] (n : Int64) (config : ExecutionConfig) (host : H) :
    ∃ enough, ∀ fuel, enough ≤ fuel → ∃ r,
      (runningSum R H n).2.execute config fuel (runningSum R H n).1 host = (r, host) ∧
        EndsAsSum n r := by
  obtain ⟨r, t, hrun, hhost, hend⟩ := run_settles (R := R) n config.loopScope host
  obtain ⟨enough, hexec⟩ := Program.executeIn_of_settles (verify_eq n) hrun
  refine ⟨enough, fun fuel hfuel => ⟨_, ?_, hend⟩⟩
  rw [Program.execute, hexec fuel hfuel, ← hhost]

end StagedGraph
