import StagedGraph.Execution
import StagedGraph.Proofs.Confinement
import StagedGraph.Proofs.Interning
import StagedGraph.Proofs.Results

/-!
# Results lose no binding

The result of an execution shows the global scope by the strings of its names. Two names with one
string would leave one binding only, so nothing is lost if the names in the scope have different
strings. The names of a program have (`Built.text_injective`), and a run binds no other names: in the
state that a run starts in nothing is bound, expressions leave the environment alone, and a statement
binds the name that it assigns to (`exec_bindsOnly`, by induction on the fuel).

What is left is that sorting pairs with different keys only puts them in another order
(`sortByKey_perm`).
-/

namespace StagedGraph

variable {R H α β : Type}

/-! ### The names that a run binds -/

/-- Every name that an open scope binds is one of these. -/
def Environment.BindsOnly (A : Name → Prop) (env : Environment R) : Prop :=
  ∀ l ∈ env.levels, ∀ x, l.bindings.contains x = true → A x

namespace Environment.BindsOnly

variable {A : Name → Prop} {env : Environment R}

theorem empty : (Environment.empty : Environment R).BindsOnly A := by
  intro l hl x hx
  obtain rfl := List.mem_singleton.1 hl
  cases hx

theorem push (h : env.BindsOnly A) (kind : ScopeKind) : (env.push kind).BindsOnly A := by
  intro l hl x hx
  rw [levels_push] at hl
  rcases List.mem_cons.1 hl with rfl | hl
  · cases hx
  · exact h l hl x hx

theorem pop (h : env.BindsOnly A) : env.pop.BindsOnly A := by
  intro l hl
  rcases env.pop_cases with heq | heq
  · rw [heq] at hl
    exact h l hl
  · rw [heq] at hl
    exact h l (List.mem_of_mem_tail hl)

theorem assign (h : env.BindsOnly A) {x : Name} (hx : A x) (v : Value R) :
    (env.assign x v).BindsOnly A := by
  intro l hl y hy
  obtain ⟨i, m, hm, -, -, heq⟩ := Level.assign_spec x v env.levels_ne_nil
  rw [levels_assign, heq] at hl
  rcases List.mem_or_eq_of_mem_set hl with hl | rfl
  · exact h l hl y hy
  · rcases Level.contains_insert.1 hy with rfl | hy
    · exact hx
    · exact h m (List.mem_of_getElem? hm) y hy

theorem of_mem_globals (h : env.BindsOnly A) {x : Name} {v : Value R} (hx : (x, v) ∈ env.globals) :
    A x := by
  have hlast := List.getLast?_eq_some_getLast env.levels_ne_nil
  rw [globals_eq hlast] at hx
  refine h _ (List.mem_of_getLast? hlast) x ?_
  rw [NameMap.contains, NameMap.find?_eq_some.2 hx]
  rfl

end Environment.BindsOnly

namespace Interpreter

open Run

/-- The law: a step binds none but these names if none but these were bound. -/
def Adds (A : Name → Prop) (s : RunState R H) (_ : Option Stop) (t : RunState R H) : Prop :=
  s.env.BindsOnly A → t.env.BindsOnly A

variable {A : Name → Prop} {p : Program R H} {x : Run R H α}

theorem adds_of_untouched (hx : Obeys Untouched x) : Obeys (Adds A) x := by
  intro s h
  rw [(hx s).1]
  exact h

theorem adds_bind {f : α → Run R H β} (hx : Obeys (Adds A) x)
    (hf : ∀ a, Obeys (Adds A) (f a)) : Obeys (Adds A) (x >>= f) :=
  Obeys.bind (fun hst htu h => htu (hst h)) hx hf

theorem adds_pure (a : α) : Obeys (Adds A) (Pure.pure a : Run R H α) := fun _ h => h

theorem execAll_adds {step : Stmt → Run R H (Flow R)} {sts : List Stmt}
    (h : ∀ st ∈ sts, Obeys (Adds A) (step st)) : Obeys (Adds A) (execAll step sts) := by
  induction sts with
  | nil => exact adds_pure _
  | cons st sts ih =>
    have h := List.forall_mem_cons.1 h
    refine adds_bind h.1 fun flow => ?_
    cases flow with
    | normal => exact ih h.2
    | breakLoop | returned => exact adds_pure _

theorem iteration_adds (mode : LoopScope) {x : Run R H (Flow R)} (hx : Obeys (Adds A) x) :
    Obeys (Adds A) (iteration mode x) := by
  cases mode with
  | shared => exact hx
  | perIteration => exact fun s h => (hx s.opened (h.push .block)).pop

variable [Scalar R]

/-- A statement binds the name that it assigns to. -/
theorem execStmt_adds {eval : ExprId → Run R H (Value R)} {exec : BlockId → Run R H (Flow R)}
    {loop : ExprId → BlockId → Run R H (Flow R)} (heval : ∀ e, Obeys Untouched (eval e))
    (hexec : ∀ b, Obeys (Adds A) (exec b)) (hloop : ∀ c b, Obeys (Adds A) (loop c b)) {st : Stmt}
    (hst : ∀ x e, st = .assign x e → A x) : Obeys (Adds A) (execStmt eval exec loop st) := by
  cases st with
  | expr e => exact adds_bind (adds_of_untouched (heval e)) fun _ => adds_pure _
  | assign x e =>
    refine adds_bind (adds_of_untouched (heval e)) fun v => adds_bind ?_ fun _ => adds_pure _
    exact fun s h => h.assign (hst x e rfl) v
  | ifThen cond b =>
    have htest : Obeys Untouched (test eval cond) :=
      (frame_laws (R := R) (H := H) .empty).test heval cond
    refine adds_bind (adds_of_untouched htest) fun holds => ?_
    cases holds with
    | true => exact hexec b
    | false => exact adds_pure _
  | whileLoop cond b => exact hloop cond b
  | returnValue e =>
    cases e with
    | none => exact adds_pure _
    | some e => exact adds_bind (adds_of_untouched (heval e)) fun _ => adds_pure _
  | breakLoop | funcDef => exact adds_pure _

/-- **A run binds the names that the statements of its program assign to**, and no other. -/
theorem exec_adds (hp : ∀ b x e, .assign x e ∈ p.block b → A x) (mode : LoopScope) (fuel : Nat) :
    (∀ b, Obeys (Adds A) (exec p mode fuel b)) ∧ ∀ c b, Obeys (Adds A) (loop p mode fuel c b) := by
  induction fuel with
  | zero => exact ⟨fun _ _ h => h, fun _ _ _ h => h⟩
  | succ fuel ih =>
    obtain ⟨hexec, hloop⟩ := ih
    refine ⟨fun b => ?_, fun c b => ?_⟩
    · rw [exec]
      refine execAll_adds fun st hst => execStmt_adds ((frame_laws p).eval mode fuel) hexec hloop ?_
      rintro x e rfl
      exact hp b x e hst
    · rw [loop]
      have htest := (frame_laws p).test ((frame_laws p).eval mode fuel) c
      refine adds_bind (adds_of_untouched htest) fun holds => ?_
      cases holds with
      | false => exact adds_pure _
      | true =>
        refine adds_bind (iteration_adds mode (hexec b)) fun flow => ?_
        cases flow with
        | normal => exact hloop c b
        | breakLoop | returned => exact adds_pure _

/-- A run from a fresh state leaves only such names bound. -/
theorem run_bindsOnly (hp : ∀ b x e, .assign x e ∈ p.block b → A x) (mode : LoopScope) (fuel : Nat)
    (root : BlockId) (host : H) : (run p mode fuel root (.fresh host)).2.env.BindsOnly A := by
  refine adds_bind ((exec_adds hp mode fuel).1 root) (fun flow => ?_) (.fresh host) .empty
  cases flow with
  | normal => exact adds_pure ()
  | breakLoop | returned => exact fun _ h => h

end Interpreter

/-! ### The names of a program -/

namespace Program

variable {p q : Program R H}

/-- Statements assign to names of the program. -/
def AssignsOwn (p : Program R H) : Prop := ∀ b x e, .assign x e ∈ p.block b → p.HasName x

theorem AssignsOwn.congr (h : p.AssignsOwn) (hnames : p.interner.size ≤ q.interner.size)
    (hblock : ∀ b, q.block b = p.block b) : q.AssignsOwn := by
  intro b x e hst
  rw [hblock] at hst
  exact Nat.lt_of_lt_of_le (h b x e hst) hnames

theorem AssignsOwn.push (h : p.AssignsOwn) {b : BlockId} (hb : p.HasBlock b) {st : Stmt}
    (hst : p.HasStmt st) : (p.push b st).AssignsOwn := by
  intro c x e hmem
  rw [block_push hb] at hmem
  rcases List.mem_append.1 hmem with hmem | hmem
  · exact h c x e hmem
  · split at hmem
    · rw [← List.mem_singleton.1 hmem] at hst
      exact hst.1
    · cases hmem

theorem Builds.assignsOwn (h : p.Builds q) (hp : p.Owned) (hown : p.AssignsOwn) : q.AssignsOwn := by
  have hnames : p.interner.size ≤ q.interner.size := (h.extends hp).names
  cases h with
  | intern | literal | var | neg | invoke | native | increment => exact hown.congr hnames fun _ => rfl
  | block => exact hown.congr hnames (block_addBlock none)
  | func => exact hown.congr hnames (block_addBlock _)
  | append hb hst h => exact append_eq_push h ▸ hown.push hb hst
  | appendBody hf hst h => exact appendBody_eq_push h ▸ hown.push (hp.body _ hf).1 hst
  | sealFunc _ h => exact sealFunc_eq_markSealed h ▸ hown.congr (Nat.le_refl _) fun _ => rfl

theorem Built.assignsOwn (hp : p.Built) : p.AssignsOwn := by
  induction hp with
  | refl => exact fun b x e hst => absurd hst (block_of_size_le (p := .empty) (Nat.zero_le _) ▸ List.not_mem_nil)
  | tail hp h ih => exact h.assignsOwn (Built.owned hp) ih

end Program

/-! ### Sorting -/

theorem insertSorted_perm (k : String) (v : α) {l : List (String × α)} (hk : k ∉ l.map Prod.fst) :
    (sortByKey.insertSorted k v l).Perm ((k, v) :: l) := by
  induction l with
  | nil => exact .refl _
  | cons e l ih =>
    obtain ⟨j, w⟩ := e
    obtain ⟨hne, hk⟩ := not_or.1 (mt List.mem_cons.2 hk)
    rw [sortByKey.insertSorted, if_neg hne]
    split
    · exact .refl _
    · exact ((ih hk).cons (j, w)).trans (.swap _ _ l)

/-- Pairs with different keys are only put in another order. -/
theorem sortByKey_perm {l : List (String × α)} (h : (l.map Prod.fst).Nodup) :
    (sortByKey l).Perm l := by
  have hfold : ∀ acc : List (String × α), ((acc ++ l).map Prod.fst).Nodup →
      (l.foldl (fun sorted e => sortByKey.insertSorted e.1 e.2 sorted) acc).Perm (acc ++ l) := by
    clear h
    induction l with
    | nil => exact fun acc _ => by rw [List.append_nil]; exact .refl _
    | cons e l ih =>
      intro acc hnodup
      have hperm : (acc ++ e :: l).Perm (e :: (acc ++ l)) := List.perm_middle
      have hnodup := (hperm.map Prod.fst).nodup_iff.1 hnodup
      have hk : e.1 ∉ acc.map Prod.fst := fun hmem =>
        (List.nodup_cons.1 hnodup).1 (by rw [List.map_append]; exact List.mem_append_left _ hmem)
      have hinsert := (insertSorted_perm e.1 e.2 hk).append_right l
      exact (ih _ ((hinsert.map Prod.fst).nodup_iff.2 hnodup)).trans (hinsert.trans hperm.symm)
  exact hfold [] h

/-- Where a key stands once, looking it up is finding its pair. -/
theorem lookup_eq_some_iff_mem {l : List (String × α)} (h : (l.map Prod.fst).Nodup) {k : String}
    {v : α} : l.lookup k = some v ↔ (k, v) ∈ l := by
  induction l with
  | nil => simp
  | cons e l ih =>
    obtain ⟨j, w⟩ := e
    obtain ⟨hj, hl⟩ := List.nodup_cons.1 h
    rw [lookup_cons_ite, List.mem_cons]
    split
    · next hkj =>
      subst hkj
      have hnot : (k, v) ∉ l := fun hmem => hj (List.mem_map.2 ⟨(k, v), hmem, rfl⟩)
      simp [hnot, eq_comm]
    · next hkj => simp [hkj, ih hl]

/-! ### Results -/

/-- The result shows what a scope with these bindings binds, each name under its string. -/
structure Bindings.Shows (bs : Bindings R) (p : Program R H) (globals : List (Name × Value R)) :
    Prop where
  find?_eq_some_iff : ∀ string v, bs.find? string = some v ↔
    ∃ x, (x, v) ∈ globals ∧ p.text x = string
  keys_nodup : (bs.map Prod.fst).Nodup
  length_eq : bs.length = globals.length

/-- A scope that binds only names of the program is shown as it is. -/
theorem Program.Built.shows_named {p : Program R H} (hp : p.Built) {m : NameMap (Value R)}
    (hnames : ∀ x v, (x, v) ∈ m.entries → p.HasName x) :
    Bindings.Shows (p.interner.named m.entries) p m.entries := by
  have hkeys : ((m.entries.map fun b => (p.interner.lookup b.1, b.2)).map Prod.fst).Nodup := by
    rw [List.map_map, show Prod.fst ∘ (fun b : Name × Value R => (p.interner.lookup b.1, b.2)) =
      p.text ∘ Prod.fst from rfl, ← List.map_map]
    refine m.nodup.map_on fun x hx y hy hxy => ?_
    obtain ⟨⟨x, v⟩, hxv, rfl⟩ := List.mem_map.1 hx
    obtain ⟨⟨y, w⟩, hyw, rfl⟩ := List.mem_map.1 hy
    exact hp.text_injective (hnames x v hxv) (hnames y w hyw) hxy
  have hperm := sortByKey_perm hkeys
  have hnodup := (hperm.map Prod.fst).nodup_iff.2 hkeys
  refine ⟨fun string v => ?_, hnodup, hperm.length_eq.trans (List.length_map _)⟩
  rw [Bindings.find?, Interner.named, lookup_eq_some_iff_mem hnodup, hperm.mem_iff, List.mem_map]
  constructor
  · rintro ⟨⟨x, w⟩, hmem, heq⟩
    cases heq
    exact ⟨x, hmem, rfl⟩
  · rintro ⟨x, hmem, rfl⟩
    exact ⟨(x, v), hmem, rfl⟩

/-- **Names are exact, and results lose no binding.** A new interner is exact after any requests: its
map and its list are inverse to each other; the name of a string is looked up as the string, then and
later; strings have one name only if they are the same; a name is found for the strings that were
interned and no other; and the size counts these strings and the empty one. So whenever an execution of a program has a result, the result shows under
its string every name that the global scope binds at the end, with its value, and nothing else, and
has as many entries as the scope. -/
theorem names_exact_results_complete [Scalar R] :
    (∀ rs, (Interner.empty.after rs).Exact (Interner.Request.strings rs)) ∧
      ∀ p : Program R H, p.Built → ∀ config fuel root host bs s,
        p.executeIn config fuel root host = (.ok bs, s) → bs.Shows p s.env.globals := by
  refine ⟨Interner.exact_after, fun p hp config fuel root host bs s h => ?_⟩
  have hbinds := Interpreter.run_bindsOnly hp.assignsOwn config.loopScope fuel root host
  rw [Program.executeIn] at h
  split at h
  · cases h
  · rcases hrun : Interpreter.run p config.loopScope fuel root (.fresh host) with ⟨why | u, t⟩
    · rw [hrun] at h
      cases h
    · rw [hrun] at h hbinds
      cases h
      have hnames x v (hx : (x, v) ∈ s.env.globals) : p.HasName x := hbinds.of_mem_globals hx
      rw [Environment.globals_eq (List.getLast?_eq_some_getLast s.env.levels_ne_nil)] at hnames ⊢
      exact hp.shows_named hnames

/-- A program that binds a variable, and another one whose name is the empty string. -/
def bindsTwo : List (Command Float Nat) :=
  [.var "a", .var "", .literal (.int 1), .literal (.int 2), .block,
    .append ⟨0⟩ (.assign ⟨1⟩ ⟨2⟩), .append ⟨0⟩ (.assign ⟨0⟩ ⟨3⟩)]

/-- Both are in the result. -/
theorem names_exact_results_complete_bindsTwo :
    (Program.empty.after bindsTwo).Built ∧
      ((Program.empty.after bindsTwo).executeIn ⟨.shared⟩ 3 ⟨0⟩ 0).1 =
        .ok [("", .int 2), ("a", .int 1)] ∧
      Bindings.Shows [("", .int 2), ("a", .int 1)] (Program.empty.after bindsTwo)
        ((Program.empty.after bindsTwo).executeIn ⟨.shared⟩ 3 ⟨0⟩ 0).2.env.globals := by
  have hlegal : Command.AllLegal .empty bindsTwo := by decide
  have hempty : (.empty : Program Float Nat).Built := .refl
  exact ⟨hempty.after hlegal, rfl, names_exact_results_complete.2 _ (hempty.after hlegal) ⟨.shared⟩ 3
    ⟨0⟩ 0 _ _ rfl⟩

end StagedGraph
