import Mathlib.Data.List.Permutation
import StagedGraph.Proofs.BodyEntries
import StagedGraph.Proofs.OperatorCalls

/-!
# Counting down

A function counts down by calling itself with a smaller argument, until the argument is not positive.
All of its calls bind the same parameter, each in a frame of its own, and each argument is evaluated
in the frame of the call before; a return under a condition ends one call only.

The states of a run are written down as they should be: `entry n host k` is the one in which the body
of the `k`-th call is entered, inside of the frames of the calls before (`nested`) and after their
tests and subtractions (`descent`). What one call does in its state is a test, and then either a
return of zero or the next call (`done_tests`, `smaller_evaluates`, `entered_eq`). By induction on the
calls that are left, each call returns zero and closes its frame (`body_returns`), and the bodies
entered from there are those of the calls that are left (`entersBody_body_iff`).
-/

namespace StagedGraph

open Interpreter

/-- `def count_down(n) { if le(n, 0) { return 0 }; return count_down(sub(n, 1)) }` and
`r = count_down(n)`. -/
def countDown (R H : Type) [Scalar R] (n : Int64) : BlockId × Program R H :=
  let build : Build R H BlockId := do
    let ops ← Operators.register
    let param ← Build.var "n"
    let f ← Build.func "count_down" [param]
    let zero ← Build.literal (.int 0)
    let done ← Build.call (ops.id .le) [param.expr, zero]
    let base ← Build.block
    Build.push base (.returnValue zero)
    Build.pushBody f (.ifThen done base)
    let one ← Build.literal (.int 1)
    let smaller ← Build.call (ops.id .sub) [param.expr, one]
    let recurse ← Build.apply f [smaller]
    Build.pushBody f (.returnValue recurse)
    let definition ← Build.sealFunc f
    let r ← Build.var "r"
    let start ← Build.literal (.int n)
    let call ← Build.apply f [start]
    let root ← Build.block
    Build.push root definition
    Build.push root (.assign r.name call)
    return root
  build.run Program.empty

variable {R H : Type}

namespace CountDown

/-! ### The text of the program -/

/-- The parameter of the function. -/
def param : Name := ⟨1⟩

/-- The variable that is assigned to in the root. -/
def r : Name := ⟨3⟩

/-- The function that counts down. -/
def func : FuncId := ⟨0⟩

/-- The condition under which a call does not make another one. -/
def done : Term R := .operator .le (.var param) (.literal (.int 0))

/-- The argument of the next call. -/
def smaller : Term R := .operator .sub (.var param) (.literal (.int 1))

theorem done_callFree : (done : Term R).CallFree :=
  .native (by simp [Term.CallFree.var, Term.CallFree.literal])

theorem smaller_callFree : (smaller : Term R).CallFree :=
  .native (by simp [Term.CallFree.var, Term.CallFree.literal])

def body : List (Code R) :=
  [.ifThen done [.returnValue (.literal (.int 0))],
    .returnValue (.invoke (.callable func) [smaller])]

def text (n : Int64) : List (Code R) :=
  [.funcDef func [param] body, .assign r (.invoke (.callable func) [.literal (.int n)])]

section Text

variable [Scalar R]

/-- The program has the operators, and the function. -/
structure Defined (p : Program R H) : Prop where
  operators : ∀ o : Operator, p.native ⟨o.index⟩ = o.native
  isSealed : (p.func func).isSealed = true
  params : (p.func func).params = [param]
  body_at : Code.AtBlock p body (p.func func).body

variable (n : Int64)

theorem text_at : Code.AtBlock (countDown R H n).2 (text n) (countDown R H n).1 := by
  have htext : (countDown R H n).2.blockCode? 6 (countDown R H n).1 = some (text n) := by cbv
  exact Program.blockCode?_at htext

theorem defined : Defined (countDown R H n).2 where
  operators := native_of_natives_eq (by cbv)
  isSealed := by cbv
  params := by cbv
  body_at := by
    have hbody : (countDown R H n).2.blockCode? 5 ((countDown R H n).2.func func).body =
        some body := by
      cbv
    exact Program.blockCode?_at hbody

theorem verify_eq : (countDown R H n).2.verify (countDown R H n).1 = .ok () := by cbv

end Text

/-! ### The states -/

/-- The argument of the `k`-th call. -/
def arg (n : Int64) (k : Nat) : Int64 := .ofInt (n.toInt - k)

theorem arg_zero (n : Int64) : arg n 0 = n := by simp [arg]

theorem toInt_arg {n : Int64} {k : Nat} (hk : k ≤ n.toInt.toNat) : (arg n k).toInt = n.toInt - k := by
  have hmin := n.le_toInt
  have hmax := n.toInt_lt
  exact Int64.toInt_ofInt_of_le (by omega) (by omega)

/-- The environment inside of the first `depth` calls. -/
def nested (n : Int64) : Nat → Environment R
  | 0 => .empty
  | depth + 1 => ((nested n depth).push .frame).bind [param] [.int (arg n depth)]

/-- What was called before the `k`-th call, the latest first. -/
def descent (n : Int64) : Nat → List (Event R)
  | 0 => []
  | k + 1 =>
    .called ⟨Operator.sub.index⟩ [.int (arg n k), .int 1] (.value (.int (arg n (k + 1)))) ::
      .called ⟨Operator.le.index⟩ [.int (arg n k), .int 0] (.value (.bool false)) :: descent n k

/-- The state in which the `k`-th call starts. -/
def entry (n : Int64) (host : H) (k : Nat) : RunState R H :=
  ⟨nested n (k + 1), .replicate (k + 1) func, host, descent n k⟩

theorem levels_nested (n : Int64) (depth : Nat) :
    (nested n depth : Environment R).levels =
      (List.range depth).reverse.map
        (fun j => ⟨NameMap.empty.insert param (.int (arg n j)), .frame⟩) ++
          [⟨NameMap.empty, .global⟩] := by
  induction depth with
  | zero => rfl
  | succ depth ih =>
    rw [nested, Environment.levels_bind, Environment.levels_push, ih, List.range_succ]
    simp [Level.define, Level.insert]

theorem lookup_nested (n : Int64) (depth : Nat) :
    (nested n (depth + 1) : Environment R).lookup param = some (.int (arg n depth)) := by
  rw [Environment.lookup_eq, levels_nested, List.range_succ]
  simp [Level.lookup, NameMap.find?_insert]

theorem pop_nested (n : Int64) (depth : Nat) :
    (nested n (depth + 1) : Environment R).pop = nested n depth :=
  Environment.pop_bind_push _ _ _ _

/-- The record of the test of the `k`-th call. -/
def tested (n : Int64) (k : Nat) (holds : Bool) : List (Event R) :=
  .called ⟨Operator.le.index⟩ [.int (arg n k), .int 0] (.value (.bool holds)) :: descent n k

/-- The state in which the `k`-th call ends: nothing was called after the last test. -/
def exit (n : Int64) (host : H) (k : Nat) : RunState R H :=
  { entry n host k with history := tested n n.toInt.toNat true }

/-! ### One call -/

section Calls

variable [Scalar R] {p : Program R H} (hp : Defined p) (mode : LoopScope) {n : Int64} (host : H)
  {k : Nat}

include hp

/-- The last call finds that its argument is not positive, and no other does. -/
theorem done_tests (hk : k ≤ n.toInt.toNat) (holds : Bool) (h : holds = true ↔ k = n.toInt.toNat) :
    Tests p mode done (entry n host k) holds { entry n host k with history := tested n k holds } := by
  have hle : Operator.le.eval [.int (arg n k), (.int 0 : Value R)] = .ok (.bool holds) := by
    have hholds : holds = decide ((arg n k).toInt ≤ (0 : Int64).toInt) := by
      rw [Bool.eq_iff_iff, h, decide_eq_true_iff, toInt_arg hk]
      change _ ↔ _ ≤ (0 : Int)
      omega
    rw [Operator.eval_le_ints, hholds]
  exact .of_bool (.operator (hp.operators .le)
    (.cons (.var (lookup_nested n k)) (.cons (.literal (.int 0)) .nil)) rfl hle)

theorem last_tests : Tests p mode done (entry n host n.toInt.toNat) true
    { entry n host n.toInt.toNat with history := tested n n.toInt.toNat true } :=
  done_tests hp mode host (Nat.le_refl _) true (by simp)

theorem next_tests (hk : k < n.toInt.toNat) : Tests p mode done (entry n host k) false
    { entry n host k with history := tested n k false } :=
  done_tests hp mode host (Nat.le_of_lt hk) false ⟨nofun, fun h => absurd h (Nat.ne_of_lt hk)⟩

theorem smaller_evaluates (hk : k < n.toInt.toNat) :
    EvaluatesAll p mode [smaller] { entry n host k with history := tested n k false }
      [.int (arg n (k + 1))] { entry n host k with history := descent n (k + 1) } := by
  have hsub : Operator.sub.eval [.int (arg n k), (.int 1 : Value R)] =
      .ok (.int (arg n (k + 1))) := by
    refine Operator.eval_sub_ints ?_
    rw [toInt_arg hk, toInt_arg (Nat.le_of_lt hk)]
    change _ = _ - (1 : Int)
    omega
  exact .cons (.operator (hp.operators .sub)
    (.cons (.var (lookup_nested n k)) (.cons (.literal (.int 1)) .nil)) rfl hsub) .nil

/-- The body of the next call is entered in a frame inside the frame of the call before. -/
theorem entered_eq : ({ entry n host k with history := descent n (k + 1) } : RunState R H).entered p
    func [.int (arg n (k + 1))] = entry n host (k + 1) := by
  rw [RunState.entered, hp.params]
  rfl

theorem admits (v : Value R) : p.Admits func [v].length := ⟨hp.isSealed, by rw [hp.params]; rfl⟩

/-- A call is what its body returns, and closes the frame that it opened. -/
theorem call_evaluates {terms : List (Term R)} {s t u : RunState R H} {v w : Value R}
    (hargs : EvaluatesAll p mode terms s [v] t)
    (hbody : ExecutesAll p mode body (t.entered p func [v]) (.ok (.returned w)) u) :
    Evaluates p mode (.invoke (.callable func) terms) s (.ok w) u.left :=
  .call hargs hp.isSealed (admits hp v).2 hp.body_at hbody

/-- **Each call returns zero**, and leaves what was bound around it. The induction is on the calls
that are left. -/
theorem body_returns {left : Nat} (hk : k + left = n.toInt.toNat) :
    ExecutesAll p mode body (entry n host k) (.ok (.returned (.int 0))) (exit n host k) := by
  induction left generalizing k with
  | zero =>
    obtain rfl : n.toInt.toNat = k := hk.symm
    exact .last (.ifThen (last_tests hp mode host) (.last (.returnValue (.literal (.int 0))) nofun)) nofun
  | succ left ih =>
    have hlt : k < n.toInt.toNat := by omega
    have hcall := call_evaluates hp mode (smaller_evaluates hp mode host hlt)
      (entered_eq (R := R) hp host ▸ ih (by omega))
    have hleft : (exit n host (k + 1) : RunState R H).left = exit n host k := by
      rw [RunState.left, exit, entry]
      simp [exit, entry, pop_nested, List.replicate_succ]
    exact .cons (.ifThen_skip (next_tests hp mode host hlt)) (.last (.returnValue (hleft ▸ hcall)) nofun)

/-! ### The bodies that are entered -/

/-- The numbers in the body of the function. -/
theorem block_body : ∃ cond base e, p.block (p.func func).body =
      [.ifThen cond base, .returnValue (some e)] ∧ done.At p cond ∧
      Code.AtBlock p [.returnValue (.literal (.int 0))] base ∧
      (Term.invoke (.callable func) [smaller]).At p e := by
  obtain ⟨_, _, hif, hrest, hblock⟩ := List.forall₂_cons_left_iff.1 hp.body_at
  obtain ⟨_, _, hreturn, hnil, rfl⟩ := List.forall₂_cons_left_iff.1 hrest
  obtain rfl := List.forall₂_nil_left_iff.1 hnil
  cases hif with | ifThen hcond hbase =>
  cases hreturn with | returnValue he =>
  exact ⟨_, _, _, hblock, hcond, hbase, he⟩

omit hp in
theorem not_entersBody_base {b : BlockId} (hb : Code.AtBlock p [.returnValue (.literal (.int 0))] b)
    {s u : RunState R H} {g : FuncId} : ¬ EntersBody p mode (.block b) s g u := by
  obtain ⟨_, _, hreturn, hnil, hblock⟩ := List.forall₂_cons_left_iff.1 hb
  obtain rfl := List.forall₂_nil_left_iff.1 hnil
  cases hreturn with | returnValue he =>
  rw [entersBody_block_iff, hblock, entersBody_singleton_iff, entersBody_stmt_iff rfl]
  rintro ⟨e, he', h⟩
  obtain rfl := List.mem_singleton.1 he'
  exact not_entersBody_of_callFree .literal he h

/-- The last call makes no other. -/
theorem not_entersBody_last {g : FuncId} {u : RunState R H} :
    ¬ EntersBody p mode (.block (p.func func).body) (entry n host n.toInt.toNat) g u := by
  obtain ⟨cond, base, e, hblock, hcond, hbase, -⟩ := block_body hp
  have htest := last_tests hp mode host (n := n)
  have hif := Executes.ifThen htest (.last (.returnValue (.literal (.int 0))) nofun) _
    (.ifThen hcond hbase)
  rw [entersBody_block_iff, hblock, entersBody_cons_iff hif,
    entersBody_ifThen_iff (htest.settles hcond)]
  rintro ((h | ⟨-, h⟩) | ⟨hnormal, -⟩)
  · exact not_entersBody_of_callFree done_callFree hcond h
  · exact not_entersBody_base mode hbase h
  · cases hnormal

/-- Every other call makes one. -/
theorem entersBody_next_iff (hk : k < n.toInt.toNat) {g : FuncId} {u : RunState R H} :
    EntersBody p mode (.block (p.func func).body) (entry n host k) g u ↔
      g = func ∧ u = entry n host (k + 1) ∨
        EntersBody p mode (.block (p.func func).body) (entry n host (k + 1)) g u := by
  obtain ⟨cond, base, e, hblock, hcond, hbase, he⟩ := block_body hp
  have htest := next_tests hp mode host hk
  have hif := Executes.ifThen_skip htest _ (.ifThen hcond hbase)
  have hcall := entersBody_call_iff (g := g) (u := u) he
    (List.forall_mem_singleton.2 smaller_callFree) (smaller_evaluates hp mode host hk) (admits hp _)
  rw [entered_eq hp] at hcall
  rw [← hcall, entersBody_block_iff, hblock, entersBody_cons_iff hif,
    entersBody_ifThen_iff (htest.settles hcond), entersBody_singleton_iff, entersBody_stmt_iff rfl]
  constructor
  · rintro ((h | ⟨hholds, -⟩) | ⟨-, e', he', h⟩)
    · exact absurd h (not_entersBody_of_callFree done_callFree hcond)
    · cases hholds
    · exact List.mem_singleton.1 he' ▸ h
  · exact fun h => .inr ⟨rfl, e, List.mem_singleton_self e, h⟩

/-- **A call enters the bodies of the calls that are left.** -/
theorem entersBody_body_iff {left : Nat} (hk : k + left = n.toInt.toNat) {g : FuncId}
    {u : RunState R H} :
    EntersBody p mode (.block (p.func func).body) (entry n host k) g u ↔
      g = func ∧ ∃ j, k < j ∧ j ≤ n.toInt.toNat ∧ u = entry n host j := by
  induction left generalizing k with
  | zero =>
    obtain rfl : n.toInt.toNat = k := hk.symm
    constructor
    · exact fun h => absurd h (not_entersBody_last hp mode host)
    · rintro ⟨-, j, hj, hj', -⟩
      omega
  | succ left ih =>
    rw [entersBody_next_iff hp mode host (by omega), ih (by omega)]
    constructor
    · rintro (⟨rfl, rfl⟩ | ⟨rfl, j, hj, hj', rfl⟩)
      · exact ⟨rfl, k + 1, by omega, by omega, rfl⟩
      · exact ⟨rfl, j, by omega, hj', rfl⟩
    · rintro ⟨rfl, j, hj, hj', rfl⟩
      rcases Nat.eq_or_lt_of_le hj with rfl | hj
      · exact .inl ⟨rfl, rfl⟩
      · exact .inr ⟨rfl, j, hj, hj', rfl⟩

end Calls

/-! ### The whole program -/

section Program

variable [Scalar R] (n : Int64) (mode : LoopScope) (host : H)

/-- The first call is entered in a frame of its own. -/
theorem entered_first : (RunState.fresh host : RunState R H).entered (countDown R H n).2 func
    [.int n] = entry n host 0 := by
  rw [RunState.entered, (defined n).params, entry, nested, arg_zero]
  rfl

theorem text_executes : ∃ t : RunState R H, ExecutesAll (countDown R H n).2 mode (text n)
    (.fresh host) (.ok .normal) t ∧ t.env = Environment.empty.assign r (.int 0) ∧ t.host = host ∧
      t.history = .assigned r (.int 0) :: tested n n.toInt.toNat true := by
  have hbody := body_returns (defined (H := H) (R := R) n) mode host (Nat.zero_add n.toInt.toNat)
  rw [← entered_first] at hbody
  have hcall := call_evaluates (defined n) mode (.cons (.literal (.int n)) .nil) hbody
  refine ⟨_, .cons .funcDef (.single (.assign hcall)), ?_, rfl, rfl⟩
  rw [RunState.assigned_env, RunState.left]
  exact congrArg (Environment.assign · r (.int 0)) (pop_nested n 0)

theorem named_eq : (countDown R H n).2.interner.named
    (Environment.empty.assign r (.int 0) : Environment R).globals = [("r", .int 0)] := by
  cbv

omit [Scalar R] in
theorem eq_funcDef_of_at {p : Program R H} {f : FuncId} {params : List Name} {codes : List (Code R)}
    {st : Stmt} (h : (Code.funcDef f params codes).At p st) : st = .funcDef f := by
  cases h
  rfl

/-- The numbers in the root. -/
theorem block_root : ∃ e, (countDown R H n).2.block (countDown R H n).1 =
      [.funcDef func, .assign r e] ∧
      (Term.invoke (.callable func) [.literal (.int n)]).At (countDown R H n).2 e := by
  obtain ⟨_, _, hdefinition, hrest, hblock⟩ :=
    List.forall₂_cons_left_iff.1 (text_at (R := R) (H := H) n)
  obtain ⟨_, _, hassign, hnil, rfl⟩ := List.forall₂_cons_left_iff.1 hrest
  obtain rfl := List.forall₂_nil_left_iff.1 hnil
  obtain rfl := eq_funcDef_of_at hdefinition
  cases hassign with | assign he =>
  exact ⟨_, hblock, he⟩

/-- **The bodies that the program enters** are those of the calls, and each in its own state. -/
theorem entersBody_root_iff {g : FuncId} {u : RunState R H} :
    EntersBody (countDown R H n).2 mode (.program (countDown R H n).1) (.fresh host) g u ↔
      g = func ∧ ∃ k ≤ n.toInt.toNat, u = entry n host k := by
  obtain ⟨e, hblock, he⟩ := block_root (R := R) (H := H) n
  have hdefinition : Settles (fun fuel => stmt (countDown R H n).2 mode fuel (.funcDef func))
      (.fresh host) (.ok .normal) (.fresh host) := .of_forall fun _ => rfl
  have hcall := entersBody_call_iff (g := g) (u := u) he (List.forall_mem_singleton.2 .literal)
    (.cons (.literal (.int n)) .nil : EvaluatesAll _ mode _ (.fresh host) _ _) (admits (defined n) _)
  rw [entered_first, entersBody_body_iff (defined n) mode host (Nat.zero_add _)] at hcall
  rw [entersBody_program_iff, entersBody_block_iff, hblock, entersBody_cons_iff hdefinition,
    entersBody_stmt_iff rfl, entersBody_singleton_iff, entersBody_stmt_iff rfl]
  constructor
  · rintro (⟨e', he', -⟩ | ⟨-, e', he', h⟩)
    · cases he'
    · obtain rfl := List.mem_singleton.1 he'
      rcases hcall.1 h with ⟨rfl, rfl⟩ | ⟨rfl, j, -, hj, rfl⟩
      · exact ⟨rfl, 0, Nat.zero_le _, rfl⟩
      · exact ⟨rfl, j, hj, rfl⟩
  · rintro ⟨rfl, k, hk, rfl⟩
    refine .inr ⟨rfl, e, List.mem_singleton_self e, hcall.2 ?_⟩
    rcases Nat.eq_zero_or_pos k with rfl | hpos
    · exact .inl ⟨rfl, rfl⟩
    · exact .inr ⟨rfl, k, hpos, hk, rfl⟩

end Program

end CountDown

open CountDown

/-- **Counting down returns zero.** For every `n` and either policy for the scopes of loops, the
program ends if it has enough fuel. It leaves the host as it was, and the one binding that it leaves
is that of `r` to zero. Until then it has made the tests and the subtractions of a first call and of
one more for each number from one to `n`, and it has entered the bodies of these calls. Where the body
of the `k`-th is entered, those before are still being executed, and the frame of each binds the
parameter to its own argument, inside a global scope without bindings; and where the body has returned
zero, it is so again. -/
theorem countDown_returns_zero [Scalar R] (n : Int64) (config : ExecutionConfig) (host : H) :
    (∃ (t : RunState R H) (enough : Nat), t.host = host ∧
      t.history = .assigned r (.int 0) :: tested n n.toInt.toNat true ∧ ∀ fuel, enough ≤ fuel →
        (countDown R H n).2.executeIn config fuel (countDown R H n).1 host =
          (.ok [("r", .int 0)], t)) ∧
    (∀ g t, EntersBody (countDown R H n).2 config.loopScope (.program (countDown R H n).1)
      (.fresh host) g t ↔ g = func ∧ ∃ k ≤ n.toInt.toNat, t = entry n host k) ∧
    ∀ k ≤ n.toInt.toNat, (arg n k).toInt = n.toInt - k ∧
      (entry n host k : RunState R H).calls = .replicate (k + 1) func ∧
      (entry n host k : RunState R H).env.levels =
        (List.range (k + 1)).reverse.map
          (fun j => ⟨NameMap.empty.insert param (.int (arg n j)), .frame⟩) ++
            [⟨NameMap.empty, .global⟩] ∧
      ∃ t : RunState R H, Settles (fun fuel =>
          exec (countDown R H n).2 config.loopScope fuel ((countDown R H n).2.func func).body)
          (entry n host k) (.ok (.returned (.int 0))) t ∧
        t.env = (entry n host k : RunState R H).env ∧
        t.calls = (entry n host k : RunState R H).calls := by
  refine ⟨?_, fun g t => entersBody_root_iff n config.loopScope host, fun k hk => ?_⟩
  · obtain ⟨t, htext, henv, hhost, hhistory⟩ := text_executes (R := R) n config.loopScope host
    obtain ⟨enough, hexec⟩ := Program.executeIn_of_settles (verify_eq n) (.run (text_at n) htext)
    refine ⟨t, enough, hhost, hhistory, fun fuel hfuel => ?_⟩
    rw [hexec fuel hfuel, henv]
    exact congrArg (fun bs => (Except.ok bs, t)) (named_eq n)
  · have hbody := body_returns (defined (H := H) (R := R) n) config.loopScope host
      (Nat.add_sub_cancel' hk)
    exact ⟨toInt_arg hk, rfl, levels_nested n (k + 1), _,
      .exec (defined n).body_at hbody, rfl, rfl⟩

end StagedGraph
