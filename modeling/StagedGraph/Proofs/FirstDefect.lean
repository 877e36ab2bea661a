import Mathlib.Data.List.Forall2
import Mathlib.Data.List.Lex
import StagedGraph.Proofs.Reentry
import StagedGraph.Proofs.VerificationEnds

/-!
# Which defect the verifier reports

A program may have many defects, and the verifier reports one of them. A `Site` is something that the
verifier looks at, together with what decides there whether something is wrong: a statement knows
whether a loop of the same body is around it and whether it is in the body of a function. `Site.parts`
lists what is looked at from there on, in the order of the walk: the statements of a block one by one,
a condition before its block, the body of what an invocation calls before its arguments. A place on
the walk is an address: a list of numbers, which say at each site which of its parts is taken. The
walk comes to addresses in lexicographic order, a site before its parts. As the verifier enters a body
once, addresses on whose way a function is entered twice lead nowhere (`siteAt?`).

An error of the verifier, if it does not call a block cyclic, is a defect of the site at some
address, and no site at an earlier address has any defect (`verify_reports_first_defect`).

Two invariants carry this. What has been walked without an error is accepted in the sense of
`BlockOk`, given the functions entered so far, and of these each is accepted or is one that the walk
is still inside of (`Settled`); so there is no defect at any address behind the walk
(`SiteOk.clear`). And the steps of the verifier are those for the parts of a site, one after another
(`Reports`).
-/

namespace StagedGraph

variable {R H α : Type}

namespace Verifier

/-! ### Sites and addresses -/

/-- What the verifier looks at. A block and a statement stand in a loop of the same body or not, and
in the body of a function or not. -/
inductive Site where
  | block (b : BlockId) (inLoop inCallable : Bool)
  | stmt (s : Stmt) (inLoop inCallable : Bool)
  | expr (e : ExprId)
  | body (f : FuncId)
deriving DecidableEq

namespace Site

/-- What the verifier looks at from a site on, in this order. -/
def parts (p : Program R H) : Site → List Site
  | block b l c => (p.block b).map (stmt · l c)
  | stmt (.expr e) _ _ => [expr e]
  | stmt (.assign _ e) _ _ => [expr e]
  | stmt (.ifThen cond b) l c => [expr cond, block b l c]
  | stmt (.whileLoop cond b) _ c => [expr cond, block b true c]
  | stmt .breakLoop _ _ => []
  | stmt (.returnValue e) _ _ => e.toList.map expr
  | stmt (.funcDef f) _ _ => [body f]
  | expr e =>
    match p.expr e with
    | .literal _ => []
    | .var _ => []
    | .neg operand => [expr operand]
    | .invoke (.native _) args => args.map expr
    | .invoke (.callable f) args => body f :: args.map expr
  | body f => [block (p.func f).body false true]

/-- What is wrong at a site itself: a break with no loop around it in the same body, a return outside
of every body, an invocation with a wrong number of arguments or of a function that is not sealed. -/
inductive HasDefect (p : Program R H) : Site → Fault → Prop
  | strayBreak {c} : HasDefect p (stmt .breakLoop false c) .breakOutsideLoop
  | strayReturn {e l} : HasDefect p (stmt (.returnValue e) l false) .returnOutsideCallable
  | arity {e n args expected} : p.expr e = .invoke (.native n) args →
      (p.native n).arity = .fixed expected → expected ≠ args.length →
      HasDefect p (expr e) (.arityMismatch (p.native n).name expected args.length)
  | argCount {e f args} : p.expr e = .invoke (.callable f) args →
      (p.func f).params.length ≠ args.length →
      HasDefect p (expr e) (.arityMismatch (p.funcName f) (p.func f).params.length args.length)
  | notSealed {e f args} : p.expr e = .invoke (.callable f) args → (p.func f).isSealed = false →
      HasDefect p (expr e) (.unsealedCallable (p.funcName f))

/-- The functions entered on the way to the parts of a site; there is no way into a body that was
entered before. -/
def entering (fs : List FuncId) : Site → Option (List FuncId)
  | body f => if f ∈ fs then none else some (f :: fs)
  | _ => some fs

end Site

/-- The site at an address from another one, if there is one. These functions were entered before. -/
def siteAt? (p : Program R H) : List FuncId → Site → List Nat → Option Site
  | _, x, [] => some x
  | fs, x, i :: address => do
    let fs ← x.entering fs
    let y ← (x.parts p)[i]?
    siteAt? p fs y address

/-- There is no defect at any address from this site. -/
def Clear (p : Program R H) (fs : List FuncId) (x : Site) : Prop :=
  ∀ address y f, siteAt? p fs x address = some y → ¬ y.HasDefect p f

/-- There is this defect at an address from this site, and there is none at an earlier address. -/
def FirstDefect (p : Program R H) (fs : List FuncId) (x : Site) (f : Fault) : Prop :=
  ∃ address y, siteAt? p fs x address = some y ∧ y.HasDefect p f ∧
    ∀ earlier, List.Lex (· < ·) earlier address →
      ∀ z g, siteAt? p fs x earlier = some z → ¬ z.HasDefect p g

variable {p : Program R H} {fs fs' F ent ent' : List FuncId} {x y : Site} {f : Fault} {i : Nat}
  {address : List Nat}

theorem siteAt?_cons : siteAt? p fs x (i :: address) = some y ↔
    ∃ fs' z, x.entering fs = some fs' ∧ (x.parts p)[i]? = some z ∧
      siteAt? p fs' z address = some y := by
  rw [siteAt?]
  constructor
  · intro h
    obtain ⟨fs', hfs, h⟩ := Option.bind_eq_some_iff.1 h
    obtain ⟨z, hz, h⟩ := Option.bind_eq_some_iff.1 h
    exact ⟨fs', z, hfs, hz, h⟩
  · rintro ⟨fs', z, hfs, hz, h⟩
    simp [hfs, hz, h]

/-- A defect of the site itself comes before those of its parts. -/
theorem FirstDefect.here (h : x.HasDefect p f) : FirstDefect p fs x f :=
  ⟨[], x, rfl, h, fun _ hlex => nomatch hlex⟩

/-- The first defect of a part is the first defect of the site, if there is none before that part. -/
theorem FirstDefect.of_part (hx : ∀ g, ¬ x.HasDefect p g) (hfs : x.entering fs = some fs')
    (hy : (x.parts p)[i]? = some y)
    (hbefore : ∀ j < i, ∀ z, (x.parts p)[j]? = some z → Clear p fs' z)
    (h : FirstDefect p fs' y f) : FirstDefect p fs x f := by
  obtain ⟨address, z, hz, hdefect, hleast⟩ := h
  have hz := siteAt?_cons.2 ⟨fs', y, hfs, hy, hz⟩
  refine ⟨i :: address, z, hz, hdefect, fun earlier hlex w g hw => ?_⟩
  cases earlier with
  | nil =>
    cases hw
    exact hx g
  | cons j earlier =>
    obtain ⟨fs'', z', hfs', hz', hw⟩ := siteAt?_cons.1 hw
    cases hfs.symm.trans hfs'
    cases hlex with
    | rel hlt => exact hbefore j hlt z' hz' earlier w g hw
    | cons hlex =>
      cases hy.symm.trans hz'
      exact hleast earlier hlex w g hw

/-! ### What is accepted has no defect -/

/-- The judgement for what stands at a site. -/
def SiteOk (p : Program R H) (F : List FuncId) : Site → Prop
  | .block b l c => BlockOk p F l c b
  | .stmt s l c => StmtOk p F l c s
  | .expr e => ExprOk p F e
  | .body f => f ∈ F

/-- Among the expressions, only an invocation may be wrong itself. -/
theorem Site.HasDefect.is_invoke {e : ExprId} (h : (Site.expr e).HasDefect p f) :
    ∃ callee args, p.expr e = .invoke callee args := by
  cases h with
  | arity he | argCount he | notSealed he => exact ⟨_, _, he⟩

/-- Nothing is wrong with an invocation that passes the check. -/
theorem not_hasDefect_of_checkInvoke {e : ExprId} {callee : Callee} {args : List ExprId}
    (he : p.expr e = .invoke callee args) (hcheck : checkInvoke p callee args.length = .ok ()) :
    ¬ (Site.expr e).HasDefect p f := by
  intro h
  cases h with
  | arity he' harity hne =>
    cases he.symm.trans he'
    rw [checkInvoke, harity, checkArity, if_neg hne] at hcheck
    cases hcheck
  | argCount he' hne =>
    cases he.symm.trans he'
    rw [checkInvoke, checkArgCount, if_neg hne] at hcheck
    split at hcheck <;> cases hcheck
  | notSealed he' hsealed =>
    cases he.symm.trans he'
    rw [checkInvoke, hsealed] at hcheck
    cases hcheck

/-- What the check of an invocation fails with is wrong with it. -/
theorem hasDefect_of_checkInvoke {e : ExprId} {callee : Callee} {args : List ExprId}
    (he : p.expr e = .invoke callee args) (hcheck : checkInvoke p callee args.length = .error f) :
    (Site.expr e).HasDefect p f := by
  cases callee with
  | native n =>
    rw [checkInvoke] at hcheck
    cases harity : (p.native n).arity with
    | fixed expected =>
      rw [harity, checkArity] at hcheck
      split at hcheck <;> cases hcheck
      next hne => exact .arity he harity hne
    | variadic =>
      rw [harity] at hcheck
      cases hcheck
  | callable g =>
    rw [checkInvoke, checkArgCount] at hcheck
    split at hcheck
    · split at hcheck <;> cases hcheck
      next hne => exact .argCount he hne
    · next hsealed =>
      cases hcheck
      exact .notSealed he (Bool.eq_false_iff.2 hsealed)

namespace SiteOk

theorem not_hasDefect (h : SiteOk p F x) : ¬ x.HasDefect p f := by
  intro hdefect
  cases x with
  | block | body => cases hdefect
  | stmt s l c =>
    cases hdefect with
    | strayBreak => cases h
    | strayReturn => cases h
  | expr e =>
    cases h with
    | literal he | var he | neg he =>
      obtain ⟨_, _, he'⟩ := hdefect.is_invoke
      cases he.symm.trans he'
    | invoke he hcheck => exact not_hasDefect_of_checkInvoke he hcheck hdefect

/-- The parts of what is accepted are accepted; only into a body this does not look. -/
theorem part (hx : SiteOk p F x) (hbody : ∀ f, x ≠ .body f) (hy : y ∈ x.parts p) :
    SiteOk p F y := by
  cases x with
  | block b l c =>
    obtain ⟨s, hs, rfl⟩ := List.mem_map.1 hy
    obtain ⟨hstmts⟩ := hx
    exact hstmts s hs
  | stmt s l c =>
    cases hx with
    | expr he | assign he | returnValue he | funcDef he =>
      obtain rfl := List.mem_singleton.1 hy
      exact he
    | ifThen he hb | whileLoop he hb =>
      rcases List.mem_pair.1 hy with rfl | rfl
      · exact he
      · exact hb
    | breakLoop | returnVoid => cases hy
  | expr e =>
    cases hx with
    | literal he | var he => simp [Site.parts, he] at hy
    | neg he ha =>
      obtain rfl : y = .expr _ := by simpa [Site.parts, he] using hy
      exact ha
    | @invoke e callee args he _ hcallee hargs =>
      have harg {y : Site} (hy : y ∈ args.map Site.expr) : SiteOk p F y := by
        obtain ⟨a, ha, rfl⟩ := List.mem_map.1 hy
        exact hargs a ha
      cases callee with
      | native n => exact harg (by simpa [Site.parts, he] using hy)
      | callable f =>
        simp only [Site.parts, he, List.mem_cons] at hy
        rcases hy with rfl | hy
        · exact hcallee f rfl
        · exact harg hy
  | body f => exact absurd rfl (hbody f)

/-- **Behind what is accepted there is no defect**, if each function that may be called is accepted,
or was entered before. The induction is on the address. -/
theorem clear (hF : ∀ f ∈ F, f ∈ fs ∨ BodyOk p F f) (hx : SiteOk p F x) : Clear p fs x := by
  intro address
  induction address generalizing fs x with
  | nil =>
    intro y f hy
    cases hy
    exact hx.not_hasDefect
  | cons i address ih =>
    intro y f hy
    obtain ⟨fs', z, hfs, hz, hy⟩ := siteAt?_cons.1 hy
    have hz := List.mem_of_getElem? hz
    by_cases hbody : ∃ g, x = .body g
    · obtain ⟨g, rfl⟩ := hbody
      obtain rfl := List.mem_singleton.1 hz
      rw [Site.entering] at hfs
      split at hfs
      · cases hfs
      · next hg =>
        cases hfs
        have hbody : SiteOk p F (.block (p.func g).body false true) := (hF g hx).resolve_left hg
        exact ih (fun k hk => (hF k hk).imp_left (List.mem_cons_of_mem g)) hbody y f hy
    · have hsame : x.entering fs = some fs := by
        cases x with
        | body g => exact absurd ⟨g, rfl⟩ hbody
        | block | stmt | expr => rfl
      cases hsame.symm.trans hfs
      exact ih hF (hx.part (fun g hg => hbody ⟨g, hg⟩) hz) y f hy

end SiteOk

/-! ### What the walk has settled -/

/-- A walk that is inside of the functions `fs` has entered the functions `ent`: each of these is
accepted, or the walk is inside of it. -/
structure Settled (p : Program R H) (fs ent : List FuncId) : Prop where
  entered : fs ⊆ ent
  accepted : ∀ F, ent ⊆ F → ∀ f ∈ ent, f ∈ fs ∨ BodyOk p F f

namespace Settled

theorem start : Settled p [] [] := ⟨fun _ h => h, fun _ _ _ h => nomatch h⟩

theorem clear (h : Settled p fs ent) (hx : SiteOk p ent x) : Clear p fs x :=
  hx.clear (h.accepted ent fun _ hf => hf)

/-- A step that succeeds leaves all settled that it has entered. -/
theorem step {P : List FuncId → Prop} {s : Step} (h : Settled p fs ent) (hs : Establishes p s P)
    (hok : s ent = .ok ent') : Settled p fs ent' := by
  obtain ⟨hsub, hF⟩ := hs ent ent' hok
  refine ⟨fun f hf => hsub (h.entered hf), fun F hF' f hf => ?_⟩
  rcases (hF F hF').2 f hf with hf | hbody
  · exact h.accepted F (fun g hg => hF' (hsub hg)) f hf
  · exact .inr hbody

/-- The walk goes into one more function. -/
theorem enter (h : Settled p fs ent) (g : FuncId) : Settled p (g :: fs) (g :: ent) := by
  refine ⟨List.cons_subset_cons g h.entered, fun F hF f hf => ?_⟩
  rcases List.mem_cons.1 hf with rfl | hf
  · exact .inl List.mem_cons_self
  · have hent : ent ⊆ F := fun k hk => hF (List.mem_cons_of_mem g hk)
    exact (h.accepted F hent f hf).imp_left (List.mem_cons_of_mem g)

end Settled

/-! ### What the steps of the walk report -/

/-- The step for a site, inside of these functions: it accepts the site, or it reports its first
defect, or it finds a cycle. -/
structure Reports (p : Program R H) (fs : List FuncId) (x : Site) (s : Step) : Prop where
  establishes : Establishes p s (SiteOk p · x)
  first : ∀ ent e, Settled p fs ent → s ent = .error (.error e) →
    e = .ofFault .cyclicBlock ∨ ∃ f, e = .ofFault f ∧ FirstDefect p fs x f

/-- The steps, one after another. -/
def inTurn (steps : List Step) : Step := each id steps

theorem each_eq (step : α → Step) (as : List α) : each step as = inTurn (as.map step) := by
  induction as with
  | nil => rfl
  | cons a as ih =>
    funext ent
    rw [each, ih]
    rfl

theorem both_eq (s t : Step) : both s t = inTurn [s, t] := by
  funext ent
  simp only [both, inTurn, each, id_eq]
  cases s ent with
  | error stop => rfl
  | ok ent' => cases h : t ent' <;> simp [h]

namespace Reports

variable {s : Step} {steps : List Step} {xs : List Site}

/-- Steps in a row fail with the first of them that does. -/
theorem inTurn_error (h : List.Forall₂ (Reports p fs) xs steps) {e : EvalError}
    (hent : Settled p fs ent) (hfails : inTurn steps ent = .error (.error e)) :
    ∃ (i : Nat) (y : Site) (t : Step) (ent' : List FuncId), xs[i]? = some y ∧ Reports p fs y t ∧
      ent ⊆ ent' ∧ Settled p fs ent' ∧ t ent' = .error (.error e) ∧
      ∀ j < i, ∀ z, xs[j]? = some z → SiteOk p ent' z := by
  induction h generalizing ent with
  | nil => cases hfails
  | @cons x s xs steps hx _ ih =>
    rw [inTurn, each, id_eq] at hfails
    cases hs : s ent with
    | error stop =>
      rw [hs] at hfails
      cases hfails
      refine ⟨0, x, s, ent, rfl, hx, fun _ hf => hf, hent, hs, fun j hj => ?_⟩
      exact absurd hj (Nat.not_lt_zero j)
    | ok ent₁ =>
      rw [hs] at hfails
      obtain ⟨i, y, t, ent', hy, hreports, hsub, hent', ht, hbefore⟩ :=
        ih (hent.step hx.establishes hs) hfails
      obtain ⟨hgrows, hok⟩ := hx.establishes ent ent₁ hs
      refine ⟨i + 1, y, t, ent', hy, hreports, fun f hf => hsub (hgrows hf), hent', ht, ?_⟩
      intro j hj z hz
      cases j with
      | zero =>
        cases hz
        exact (hok ent' hsub).1
      | succ j => exact hbefore j (by omega) z hz

/-- The step of a site without a defect of its own is those of its parts in turn. -/
theorem of_parts (steps : List Step) (hs : s = inTurn steps)
    (hestablishes : Establishes p s (SiteOk p · x)) (hx : ∀ g, ¬ x.HasDefect p g)
    (hfs : x.entering fs = some fs)
    (hparts : List.Forall₂ (Reports p fs) (x.parts p) steps) : Reports p fs x s := by
  refine ⟨hestablishes, fun ent e hent hfails => ?_⟩
  rw [hs] at hfails
  obtain ⟨i, y, t, ent', hy, hreports, -, hent', ht, hbefore⟩ := inTurn_error hparts hent hfails
  rcases hreports.first ent' e hent' ht with hcyclic | ⟨f, hf, hfirst⟩
  · exact .inl hcyclic
  · exact .inr ⟨f, hf, hfirst.of_part hx hfs hy fun j hj z hz => hent'.clear (hbefore j hj z hz)⟩

/-- The step of a site with a defect of its own. -/
theorem of_defect (h : x.HasDefect p f) : Reports p fs x (fault f) := by
  refine ⟨.fault f, fun ent e _ hfails => ?_⟩
  cases hfails
  exact .inr ⟨f, rfl, .here h⟩

/-- A body is walked through once. Where the walk is not inside of it, the walk reports the first
defect there. -/
theorem once {g : FuncId} (hs : Establishes p s (BodyOk p · g))
    (h : g ∉ fs → Reports p (g :: fs) (.block (p.func g).body false true) s) :
    Reports p fs (.body g) (Verifier.once g s) where
  establishes := by
    intro ent ent' hok
    rw [Verifier.once] at hok
    split at hok
    · next hg =>
      cases hok
      exact ⟨fun _ hf => hf, fun F hF => ⟨hF hg, fun f hf => .inl hf⟩⟩
    · obtain ⟨hsub, hF⟩ := hs _ _ hok
      refine ⟨fun f hf => hsub (List.mem_cons_of_mem g hf), fun F hF' => ?_⟩
      refine ⟨hF' (hsub List.mem_cons_self), fun f hf => ?_⟩
      rcases (hF F hF').2 f hf with hf | hbody
      · rcases List.mem_cons.1 hf with rfl | hf
        · exact .inr (hF F hF').1
        · exact .inl hf
      · exact .inr hbody
  first ent e hent hfails := by
    rw [Verifier.once] at hfails
    split at hfails
    · cases hfails
    · next hg =>
      have hnew : g ∉ fs := fun hmem => hg (hent.entered hmem)
      rcases (h hnew).first _ e (hent.enter g) hfails with hcyclic | ⟨f, hf, hfirst⟩
      · exact .inl hcyclic
      · have hpart : ((Site.body g).parts p)[0]? = some (.block (p.func g).body false true) := rfl
        refine .inr ⟨f, hf, hfirst.of_part (fun g' hg' => ?_) (if_neg hnew) hpart fun j hj => ?_⟩
        · cases hg'
        · exact absurd hj (Nat.not_lt_zero j)

end Reports

theorem inTurn_single (s : Step) : inTurn [s] = s := by
  funext ent
  simp only [inTurn, each, id_eq]
  cases s ent <;> rfl

/-- Expressions report what comes first, if the bodies of functions do. -/
theorem visitExpr_reports {enter : FuncId → Step} (henter : ∀ f, Reports p fs (.body f) (enter f))
    (fuel : Nat) (e : ExprId) : Reports p fs (.expr e) (visitExpr p enter fuel e) := by
  induction fuel generalizing e with
  | zero => exact ⟨nofun, nofun⟩
  | succ fuel ih =>
    have hestablishes := visitExpr_establishes (fun f => (henter f).establishes) (fuel + 1) e
    have hnone (h : ∀ callee args, p.expr e ≠ .invoke callee args) (g : Fault) :
        ¬ (Site.expr e).HasDefect p g := by
      intro hg
      obtain ⟨callee, args, he⟩ := hg.is_invoke
      exact h callee args he
    have hargs (args : List ExprId) :
        List.Forall₂ (Reports p fs) (args.map .expr) (args.map (visitExpr p enter fuel)) := by
      simp only [List.forall₂_map_left_iff, List.forall₂_map_right_iff, List.forall₂_same]
      exact fun a _ => ih a
    cases he : p.expr e with
    | literal | var =>
      have hparts : (Site.expr e).parts p = [] := by simp [Site.parts, he]
      refine .of_parts [] ?_ hestablishes (hnone (by simp [he])) rfl (hparts ▸ .nil)
      rw [visitExpr_succ, he]
      rfl
    | neg a =>
      have hparts : (Site.expr e).parts p = [.expr a] := by simp [Site.parts, he]
      refine .of_parts [visitExpr p enter fuel a] ?_ hestablishes (hnone (by simp [he])) rfl
        (hparts ▸ .cons (ih a) .nil)
      rw [visitExpr_succ, he, inTurn_single]
    | invoke callee args =>
      cases hcheck : checkInvoke p callee args.length with
      | error f =>
        have hfault : visitExpr p enter (fuel + 1) e = fault f := by
          simp [visitExpr_succ, he, hcheck]
        exact hfault ▸ .of_defect (hasDefect_of_checkInvoke he hcheck)
      | ok u =>
        have hok (g : Fault) := not_hasDefect_of_checkInvoke (f := g) he hcheck
        cases callee with
        | native n =>
          have hparts : (Site.expr e).parts p = args.map .expr := by simp [Site.parts, he]
          refine .of_parts (args.map (visitExpr p enter fuel)) ?_ hestablishes hok rfl
            (hparts ▸ hargs args)
          simp [visitExpr_succ, he, hcheck, each_eq]
        | callable f =>
          have hparts : (Site.expr e).parts p = .body f :: args.map .expr := by simp [Site.parts, he]
          refine .of_parts (enter f :: args.map (visitExpr p enter fuel)) ?_ hestablishes
            hok rfl (by rw [hparts]; exact .cons (henter f) (hargs args))
          rw [visitExpr_succ, he]
          simp only [hcheck, each_eq]
          rfl

/-- A statement reports what comes first, if its parts do. -/
theorem visitStmt_reports {expr : ExprId → Step} {block : Context → BlockId → Step}
    {enter : FuncId → Step} {ctx : Context} {s : Stmt} (hexpr : ∀ e, Reports p fs (.expr e) (expr e))
    (hblock : ∀ l b, Reports p fs (.block b l ctx.inCallable) (block { ctx with inLoop := l } b))
    (henter : ∀ f, Reports p fs (.body f) (enter f))
    (hestablishes : Establishes p (visitStmt expr block enter ctx s)
      (SiteOk p · (.stmt s ctx.inLoop ctx.inCallable))) :
    Reports p fs (.stmt s ctx.inLoop ctx.inCallable) (visitStmt expr block enter ctx s) := by
  obtain ⟨path, l, c⟩ := ctx
  cases s with
  | expr e | assign x e =>
    exact .of_parts [_] (inTurn_single _).symm hestablishes nofun rfl (.cons (hexpr e) .nil)
  | ifThen cond b =>
    exact .of_parts [_, _] (both_eq _ _) hestablishes nofun rfl
      (.cons (hexpr cond) (.cons (hblock l b) .nil))
  | whileLoop cond b =>
    exact .of_parts [_, _] (both_eq _ _) hestablishes nofun rfl
      (.cons (hexpr cond) (.cons (hblock true b) .nil))
  | breakLoop =>
    cases l with
    | true => exact .of_parts [] rfl hestablishes nofun rfl .nil
    | false => exact .of_defect .strayBreak
  | returnValue v =>
    cases c with
    | false => cases v <;> exact .of_defect .strayReturn
    | true =>
      cases v with
      | none => exact .of_parts [] rfl hestablishes nofun rfl .nil
      | some e =>
        exact .of_parts [_] (inTurn_single _).symm hestablishes nofun rfl (.cons (hexpr e) .nil)
  | funcDef f =>
    exact .of_parts [_] (inTurn_single _).symm hestablishes nofun rfl (.cons (henter f) .nil)

/-- **The walk reports the first defect of a block**, unless it finds a cycle. The induction is on the
fuel, for blocks in any place and for any functions around them. -/
theorem visitBlock_reports (fuel : Nat) (ctx : Context) (b : BlockId) (fs : List FuncId) :
    Reports p fs (.block b ctx.inLoop ctx.inCallable) (visitBlock p fuel ctx b) := by
  induction fuel generalizing ctx b fs with
  | zero => exact ⟨nofun, nofun⟩
  | succ fuel ih =>
    have hestablishes := visitBlock_establishes (p := p) (fuel + 1) ctx b
    by_cases hb : b ∈ ctx.path
    · rw [visitBlock_of_mem hb] at hestablishes ⊢
      refine ⟨hestablishes, fun ent e _ hfails => ?_⟩
      cases hfails
      exact .inl rfl
    · have henter (f : FuncId) : Reports p fs (.body f) (enter p fuel ctx b f) :=
        .once (visitBlock_establishes fuel _ _) fun _ => ih (ctx.enter b).body _ (f :: fs)
      have hexpr := visitExpr_reports henter (p.exprs.size + 1)
      have hs := (visitBlock_of_not_mem (p := p) hb fuel).trans (each_eq _ _)
      refine .of_parts _ hs hestablishes nofun rfl ?_
      simp only [Site.parts, List.forall₂_map_left_iff, List.forall₂_map_right_iff,
        List.forall₂_same]
      intro s _
      have hblock (l : Bool) (c : BlockId) := ih { ctx.enter b with inLoop := l } c fs
      refine visitStmt_reports hexpr hblock henter ?_
      exact visitStmt_establishes (fun e => (hexpr e).establishes) (visitBlock_establishes fuel)
        (fun f => (henter f).establishes) (ctx.enter b) s

end Verifier

open Verifier

/-- **The verifier reports the first defect.** If a program is refused, and not because a block is
called cyclic, then the fault is a defect of the site at some address from the root: a break with no
loop around it in the same body, a return outside of every body, an invocation with another number of
arguments than the reported one, or of a function that is not sealed. And no site at an earlier
address has a defect. -/
theorem verify_reports_first_defect {p : Program R H} {root : BlockId} {e : EvalError}
    (h : p.verify root = .error (.error e)) (hkind : e.fault ≠ .cyclicBlock) :
    e.trace = [] ∧ ∃ address x, siteAt? p [] (.block root false false) address = some x ∧
      x.HasDefect p e.fault ∧ ∀ earlier, List.Lex (· < ·) earlier address →
        ∀ y f, siteAt? p [] (.block root false false) earlier = some y → ¬ y.HasDefect p f := by
  have hfails : visitBlock p (p.blocks.size + 1) .root root [] = .error (.error e) := by
    rw [Program.verify, entered] at h
    cases hvisit : visitBlock p (p.blocks.size + 1) .root root [] with
    | ok ent => rw [hvisit] at h; cases h
    | error stop => rw [hvisit] at h; cases h; rfl
  have hreports := visitBlock_reports (p := p) (p.blocks.size + 1) .root root []
  rcases hreports.first [] e .start hfails with rfl | ⟨f, rfl, hfirst⟩
  · exact absurd rfl hkind
  · exact ⟨rfl, hfirst⟩

/-- A loop and a condition after it share a block that breaks. Between them a function is called that
calls itself, and a return follows. -/
def sharedBreak : BlockId × Program Float Nat :=
  let build : Build Float Nat BlockId := do
    let cond ← Build.literal (.bool false)
    let f ← Build.func "f" []
    let call ← Build.apply f []
    Build.pushBody f (.expr call)
    Build.pushBody f (.returnValue none)
    let _ ← Build.sealFunc f
    let shared ← Build.block
    Build.push shared .breakLoop
    let root ← Build.block
    let stmts := [.whileLoop cond shared, .expr call, .ifThen cond shared, .returnValue none]
    stmts.forM (Build.push root)
    return root
  build.run Program.empty

/-- The break is reported where the condition leads to it, not where the loop does, and not the
return behind it. -/
theorem verify_reports_first_defect_sharedBreak :
    sharedBreak.2.verify sharedBreak.1 = .error (.error (.ofFault .breakOutsideLoop)) ∧
      Fault.breakOutsideLoop ≠ .cyclicBlock ∧
      (∃ address x, siteAt? sharedBreak.2 [] (.block sharedBreak.1 false false) address = some x ∧
        x.HasDefect sharedBreak.2 .breakOutsideLoop ∧ ∀ earlier, List.Lex (· < ·) earlier address →
          ∀ y f, siteAt? sharedBreak.2 [] (.block sharedBreak.1 false false) earlier = some y →
            ¬ y.HasDefect sharedBreak.2 f) ∧
      siteAt? sharedBreak.2 [] (.block sharedBreak.1 false false) [2, 1, 0] =
        some (.stmt .breakLoop false false) := by
  have hverify : sharedBreak.2.verify sharedBreak.1 = .error (.error (.ofFault .breakOutsideLoop)) := by
    decide +kernel
  exact ⟨hverify, nofun, (verify_reports_first_defect hverify nofun).2, by decide +kernel⟩

end StagedGraph
