import Mathlib.Data.List.Basic
import StagedGraph.Proofs.Acceptance
import StagedGraph.Proofs.Nesting

/-!
# What the verifier calls cyclic

The verifier refuses a block that it meets on its path. The path runs through bodies that it
has entered for a call as well as through blocks that stand inside one another, so that a
block may be refused that is nowhere nested in itself: a function that is called from a
block, before it was met anywhere else, and whose body contains that block.

That is all that can happen. A block that is refused as cyclic stands at the end of a walk
from the root that enters no function twice and comes back to it (`Returns`). If there are
no blocks nested in themselves, such a walk comes back by a call
(`verify_ne_cyclicBlock`). That there is no such walk is enough, and it is not necessary: the
verifier does not take the walk if it has entered one of its functions before, by another way.
-/

namespace StagedGraph

open Relation

variable {R H α : Type}

/-- Why the verifier stops at a block that it meets on its path. -/
def cyclicStop : Stop := .error (.ofFault .cyclicBlock)

namespace Program

/-- A walk from the root, which enters no function twice, comes back to a block. -/
def Returns (p : Program R H) (root : BlockId) : Prop :=
  ∃ x y, ReflTransGen p.Moves (.start root) x ∧ TransGen p.Moves x y ∧ y.block = x.block

/-- A walk has come to a place through the blocks of this path. -/
def Passed (p : Program R H) (root : BlockId) (path : List BlockId) (y : Place) : Prop :=
  ReflTransGen p.Moves (.start root) y ∧
    ∀ b ∈ path, ∃ x, x.block = b ∧ ReflTransGen p.Moves (.start root) x ∧ TransGen p.Moves x y

variable {p : Program R H} {root : BlockId} {path : List BlockId} {x y : Place}

theorem Passed.returns (h : p.Passed root path y) (hy : y.block ∈ path) : p.Returns root := by
  obtain ⟨x, hx, hroot, hxy⟩ := h.2 _ hy
  exact ⟨x, y, hroot, hxy, hx.symm⟩

theorem Passed.move (h : p.Passed root path x) (hxy : p.Moves x y) :
    p.Passed root (x.block :: path) y := by
  refine ⟨h.1.tail hxy, List.forall_mem_cons.2 ⟨⟨x, rfl, h.1, .single hxy⟩, fun b hb => ?_⟩⟩
  obtain ⟨w, hw, hroot, hwx⟩ := h.2 b hb
  exact ⟨w, hw, hroot, hwx.tail hxy⟩

/-- A walk that comes back does so through nested blocks only, or it takes a call on the way. -/
theorem Returns.cases (h : p.Returns root) :
    (∃ b, ReflTransGen p.Leads root b ∧ p.NestedInItself b) ∨
      ∃ x y z w, ReflTransGen p.Moves (.start root) x ∧ ReflTransGen p.Moves x y ∧ p.Jumps y z ∧
        ReflTransGen p.Moves z w ∧ w.block = x.block := by
  obtain ⟨x, w, hroot, hxw, hblock⟩ := h
  rcases transGen_or_cases hxw with hdesc | ⟨y, z, hxy, hyz, hzw⟩
  · refine .inl ⟨x.block, hroot.lift Place.block fun _ _ => Moves.leads, ?_⟩
    have hcycle : TransGen p.Nests x.block w.block :=
      hdesc.lift Place.block fun _ _ => Descends.nests
    rwa [hblock] at hcycle
  · exact .inr ⟨x, y, z, w, hroot, hxy, hyz, hzw, hblock⟩

end Program

namespace Verifier

variable {p : Program R H}

/-- A step that is taken for a function only once. -/
def once (f : FuncId) (body : Step) : Step := fun entered =>
  if f ∈ entered then .ok entered else body (f :: entered)

/-- How a function is entered from the statements of block `b`. -/
def enter (p : Program R H) (fuel : Nat) (ctx : Context) (b : BlockId) (f : FuncId) : Step :=
  once f (visitBlock p fuel (ctx.enter b).body (p.func f).body)

theorem visitBlock_of_mem {ctx : Context} {b : BlockId} (hb : b ∈ ctx.path) (fuel : Nat) :
    visitBlock p (fuel + 1) ctx b = fault .cyclicBlock := by
  funext entered
  rw [visitBlock, if_pos hb]

theorem visitBlock_of_not_mem {ctx : Context} {b : BlockId} (hb : b ∉ ctx.path) (fuel : Nat) :
    visitBlock p (fuel + 1) ctx b =
      each (visitStmt (visitExpr p (enter p fuel ctx b) (p.exprs.size + 1)) (visitBlock p fuel)
        (enter p fuel ctx b) (ctx.enter b)) (p.block b) := by
  funext entered
  rw [visitBlock, if_neg hb]
  rfl

/-! ### Faults of cyclic nesting -/

/-- Taken when at least these functions were entered, a step of the walk forgets none, and it
stops for a cyclic block only if `C` holds. -/
structure Blames (x : Step) (fs : List FuncId) (C : Prop) : Prop where
  grows : ∀ ent ent', fs ⊆ ent → x ent = .ok ent' → ent ⊆ ent'
  blames : ∀ ent, fs ⊆ ent → x ent = .error cyclicStop → C

namespace Blames

variable {fs : List FuncId} {C : Prop}

theorem congr {x y : Step} (hy : Blames y fs C) (h : ∀ ent, x ent = y ent) : Blames x fs C :=
  (funext h : x = y) ▸ hy

theorem done : Blames .ok fs C where
  grows := fun _ _ _ h => by cases h; exact fun _ hf => hf
  blames := nofun

theorem fault {f : Fault} (h : f = .cyclicBlock → C) : Blames (Verifier.fault f) fs C where
  grows := nofun
  blames := fun _ _ hx => by cases hx; exact h rfl

/-- What is refused in the wrong place is not refused as a cyclic block. -/
theorem allowed {x : Step} {f : Fault} {c : Bool} (hx : Blames x fs C)
    (hf : f ≠ .cyclicBlock) : Blames (if c then x else Verifier.fault f) fs C := by
  split
  · exact hx
  · exact .fault fun h => absurd h hf

theorem both {x y : Step} (hx : Blames x fs C) (hy : Blames y fs C) :
    Blames (Verifier.both x y) fs C where
  grows ent ent'' hfs hxy := by
    rw [Verifier.both] at hxy
    split at hxy
    · next ent' hent =>
      have hsub := hx.grows _ _ hfs hent
      exact fun f hf => hy.grows _ _ (fun g hg => hsub (hfs hg)) hxy (hsub hf)
    · cases hxy
  blames ent hfs hxy := by
    rw [Verifier.both] at hxy
    split at hxy
    · next ent' hent => exact hy.blames _ (fun f hf => hx.grows _ _ hfs hent (hfs hf)) hxy
    · next hent => cases hxy; exact hx.blames _ hfs hent

theorem each {step : α → Step} {as : List α} (h : ∀ a ∈ as, Blames (step a) fs C) :
    Blames (Verifier.each step as) fs C := by
  induction as with
  | nil => exact done
  | cons a as ih =>
    exact (h a List.mem_cons_self).both (ih fun b hb => h b (List.mem_cons_of_mem a hb))

/-- What a function is entered for the first time may stop for. -/
theorem once {f : FuncId} {body : Step} (h : f ∉ fs → Blames body (f :: fs) C) :
    Blames (Verifier.once f body) fs C where
  grows ent ent' hfs hx := by
    rw [Verifier.once] at hx
    split at hx
    · cases hx
      exact fun _ hg => hg
    · next hf =>
      have hsub := (h fun hmem => hf (hfs hmem)).grows _ _ (List.cons_subset_cons f hfs) hx
      exact fun g hg => hsub (List.mem_cons_of_mem f hg)
  blames ent hfs hx := by
    rw [Verifier.once] at hx
    split at hx
    · cases hx
    · next hf => exact (h fun hmem => hf (hfs hmem)).blames _ (List.cons_subset_cons f hfs) hx

end Blames

theorem checkInvoke_ne_cyclicBlock {callee : Callee} {argc : Nat} {f : Fault}
    (h : checkInvoke p callee argc = .error f) : f ≠ .cyclicBlock := by
  rintro rfl
  cases callee with
  | native n =>
    change checkArity _ (p.native n).arity _ = _ at h
    cases harity : (p.native n).arity with
    | fixed expected =>
      rw [harity, checkArity] at h
      split at h <;> cases h
    | variadic =>
      rw [harity] at h
      cases h
  | callable g =>
    rw [checkInvoke, checkArgCount] at h
    split at h
    · split at h <;> cases h
    · cases h

/-- What an expression stops for is what the functions that it invokes stop for. -/
theorem visitExpr_blames {enter : FuncId → Step} {fs : List FuncId} {C : Prop} (fuel : Nat)
    {e : ExprId} (henter : ∀ f, p.Invokes e f → Blames (enter f) fs C) :
    Blames (visitExpr p enter fuel e) fs C := by
  induction fuel generalizing e with
  | zero => exact ⟨nofun, nofun⟩
  | succ fuel ih =>
    have hoperand {a : ExprId} (ha : p.Operand e a) : Blames (visitExpr p enter fuel a) fs C :=
      ih fun f hf => henter f (hf.operand ha)
    cases he : p.expr e with
    | literal v => exact Blames.done.congr fun ent => by rw [visitExpr, he]
    | var x => exact Blames.done.congr fun ent => by rw [visitExpr, he]
    | neg a =>
      have ha : p.Operand e a := by rw [Program.Operand, he]; exact List.mem_singleton_self a
      exact (hoperand ha).congr fun ent => by rw [visitExpr, he]
    | invoke callee args =>
      have heach : Blames (each (visitExpr p enter fuel) args) fs C :=
        .each fun a ha => hoperand (by rw [Program.Operand, he]; exact ha)
      cases hcheck : checkInvoke p callee args.length with
      | error f =>
        have hfault : Blames (fault f) fs C :=
          .fault fun hf => absurd hf (checkInvoke_ne_cyclicBlock hcheck)
        exact hfault.congr fun ent => by simp only [visitExpr, he, hcheck]
      | ok u =>
        cases callee with
        | native n => exact heach.congr fun ent => by simp only [visitExpr, he, hcheck]
        | callable f =>
          have hboth := (henter f ⟨e, args, .refl, he⟩).both heach
          exact hboth.congr fun ent => by simp only [visitExpr, he, hcheck]

/-- What a statement stops for is what its parts stop for. -/
theorem visitStmt_blames {expr : ExprId → Step} {block : Context → BlockId → Step}
    {enter : FuncId → Step} {ctx : Context} {fs : List FuncId} {C : Prop} {s : Stmt}
    (hexpr : ∀ e ∈ s.exprs, Blames (expr e) fs C)
    (hblock : ∀ l, ∀ b ∈ s.guarded, Blames (block { ctx with inLoop := l } b) fs C)
    (henter : ∀ f, s = .funcDef f → Blames (enter f) fs C) :
    Blames (visitStmt expr block enter ctx s) fs C := by
  cases s with
  | expr e => exact hexpr e (List.mem_singleton_self e)
  | assign x e => exact hexpr e (List.mem_singleton_self e)
  | ifThen e b =>
    exact (hexpr e (List.mem_singleton_self e)).both
      (hblock ctx.inLoop b (List.mem_singleton_self b))
  | whileLoop e b =>
    exact (hexpr e (List.mem_singleton_self e)).both (hblock true b (List.mem_singleton_self b))
  | breakLoop => exact .allowed .done Fault.noConfusion
  | returnValue v =>
    cases v with
    | none => exact .allowed .done Fault.noConfusion
    | some e => exact .allowed (hexpr e (List.mem_singleton_self e)) Fault.noConfusion
  | funcDef f => exact henter f rfl

/-- **A block is refused as cyclic only where a walk comes back.** The invariant is that the
blocks of the path were passed by a walk to the block that is visited next. -/
theorem visitBlock_blames {root : BlockId} (fuel : Nat) {ctx : Context} {b : BlockId}
    {fs : List FuncId} (h : p.Passed root ctx.path ⟨b, fs⟩) :
    Blames (visitBlock p fuel ctx b) fs (p.Returns root) := by
  induction fuel generalizing ctx b fs with
  | zero => exact ⟨nofun, nofun⟩
  | succ fuel ih =>
    by_cases hb : b ∈ ctx.path
    · rw [visitBlock_of_mem hb]
      exact .fault fun _ => h.returns hb
    · have henter {f : FuncId} (hf : p.Defines b f ∨ p.Calls b f) :
          Blames (enter p fuel ctx b f) fs (p.Returns root) := by
        refine .once fun hnew => ih (h.move ?_)
        rcases hf with hf | hf
        · exact .inl (.defined hf hnew)
        · exact .inr (.called hf hnew)
      rw [visitBlock_of_not_mem hb]
      refine .each fun s hs => visitStmt_blames (fun e he => ?_) (fun l c hc => ?_) fun f hf => ?_
      · exact visitExpr_blames _ fun f hf => henter (.inr ⟨s, hs, e, he, hf⟩)
      · exact ih (h.move (.inl (.guarded ⟨s, hs, hc⟩)))
      · subst hf
        exact henter (.inl hs)

end Verifier

/-- A program that is refused as cyclic has a walk from the root that comes back. -/
theorem Program.returns_of_cyclicStop {p : Program R H} {root : BlockId}
    (h : p.verify root = .error cyclicStop) : p.Returns root := by
  rw [verify] at h
  cases hent : Verifier.entered p root with
  | ok entered => rw [hent] at h; cases h
  | error stop =>
    rw [hent] at h
    cases h
    have hstart : p.Passed root Verifier.Context.root.path (.start root) :=
      ⟨.refl, List.forall_mem_nil _⟩
    exact (Verifier.visitBlock_blames _ hstart).blames [] (fun _ hf => hf) hent

/-- **A block is called cyclic for nesting or for a call that comes back.** If no block that
the root leads to is nested in itself, and no walk that enters no function twice comes back
to a block by a call, then the verifier calls no block cyclic. -/
theorem verify_ne_cyclicBlock (p : Program R H) (root : BlockId)
    (hnested : ∀ b, ReflTransGen p.Leads root b → ¬ p.NestedInItself b)
    (hcalled : ∀ x y z w, ReflTransGen p.Moves (.start root) x → ReflTransGen p.Moves x y →
      p.Jumps y z → ReflTransGen p.Moves z w → w.block ≠ x.block) :
    p.verify root ≠ .error (.error (.ofFault .cyclicBlock)) := by
  intro h
  rcases (Program.returns_of_cyclicStop h).cases with
    ⟨b, hb, hcycle⟩ | ⟨x, y, z, w, hx, hxy, hyz, hzw, hback⟩
  · exact hnested b hb hcycle
  · exact hcalled x y z w hx hxy hyz hzw hback

/-- A function that calls itself in a block under a condition of its body, and a root that may
share the condition, the block and the call with it. -/
def recursive (root : (cond call : ExprId) → (shared : BlockId) → (definition : Stmt) → List Stmt) :
    BlockId × Program Float Nat :=
  let build : Build Float Nat BlockId := do
    let cond ← Build.literal (.bool false)
    let f ← Build.func "f" []
    let call ← Build.apply f []
    let shared ← Build.block
    Build.push shared (.expr call)
    Build.pushBody f (.ifThen cond shared)
    let definition ← Build.sealFunc f
    let b ← Build.block
    (root cond call shared definition).forM (Build.push b)
    return b
  build.run Program.empty

/-- The root calls the function and then defines it. -/
def callThenDefine : BlockId × Program Float Nat :=
  recursive fun _ call _ definition => [.expr call, definition]

/-- The root shares the block, and defines the function first. -/
def defineThenShare : BlockId × Program Float Nat :=
  recursive fun cond _ shared definition => [definition, .ifThen cond shared]

/-- The root shares the block, and defines the function after it. -/
def shareThenDefine : BlockId × Program Float Nat :=
  recursive fun cond _ shared definition => [.ifThen cond shared, definition]

/-- The depth to which blocks nest in these programs. -/
def recursiveRank (b : BlockId) : Nat :=
  match b.index with
  | 0 => 1
  | 1 => 0
  | _ => 2

section CallThenDefine

theorem callThenDefine_exprs :
    callThenDefine.2.exprs = #[.literal (.bool false), .invoke (.callable ⟨0⟩) []] := by
  decide +kernel

theorem callThenDefine_blocks : callThenDefine.2.blocks =
    #[⟨[.ifThen ⟨0⟩ ⟨1⟩], some ⟨0⟩⟩, ⟨[.expr ⟨1⟩], none⟩, ⟨[.expr ⟨1⟩, .funcDef ⟨0⟩], none⟩] := by
  decide +kernel

/-- The only function is the one that every call and every definition names. -/
theorem callThenDefine_func {b : BlockId} {f : FuncId}
    (h : callThenDefine.2.Defines b f ∨ callThenDefine.2.Calls b f) : f = ⟨0⟩ := by
  rcases h with h | ⟨-, -, e, -, a, args, -, ha⟩
  · rw [Program.Defines, Program.block, callThenDefine_blocks] at h
    obtain ⟨_ | _ | _ | n⟩ := b
    · cases h with | tail _ h => cases h
    · cases h with | tail _ h => cases h
    · cases h with | tail _ h => cases h with | head => rfl | tail _ h => cases h
    · cases h
  · rw [Program.expr, callThenDefine_exprs] at ha
    obtain ⟨_ | _ | n⟩ := a
    · cases ha
    · cases ha
      rfl
    · cases ha

/-- Nothing leads to the root, and whatever leaves it enters the function. -/
theorem callThenDefine_moves {x y : Program.Place} (h : callThenDefine.2.Moves x y) :
    y.block ≠ ⟨2⟩ ∧ (x.block = ⟨2⟩ → ⟨0⟩ ∈ y.entered) := by
  rcases h with h | h
  · cases h with
    | @guarded b c fs hc =>
      have htable : ∀ i < callThenDefine.2.blocks.size, ∀ c ∈ callThenDefine.2.nested ⟨i⟩,
          c ≠ ⟨2⟩ := by decide
      refine ⟨htable _ hc.nests.lt_size c hc.nests, ?_⟩
      rintro rfl
      have hnone : ∀ s ∈ callThenDefine.2.block ⟨2⟩, s.guarded = [] := by decide
      obtain ⟨s, hs, hmem⟩ := hc
      rw [hnone s hs] at hmem
      cases hmem
    | defined hf _ =>
      obtain rfl := callThenDefine_func (.inl hf)
      exact ⟨(by decide : (⟨0⟩ : BlockId) ≠ ⟨2⟩), fun _ => List.mem_cons_self⟩
  · cases h with
    | called hf _ =>
      obtain rfl := callThenDefine_func (.inr hf)
      exact ⟨(by decide : (⟨0⟩ : BlockId) ≠ ⟨2⟩), fun _ => List.mem_cons_self⟩

/-- A walk that starts at the root has entered the function as soon as it has left the root. -/
theorem callThenDefine_walk {x : Program.Place}
    (h : ReflTransGen callThenDefine.2.Moves (.start ⟨2⟩) x) : x.block = ⟨2⟩ ∨ ⟨0⟩ ∈ x.entered := by
  induction h with
  | refl => exact .inl rfl
  | tail _ h ih =>
    rcases ih with hroot | hmem
    · exact .inr ((callThenDefine_moves h).2 hroot)
    · exact .inr (h.entered_subset hmem)

/-- The function comes back to its body, but a walk has entered it by then. -/
theorem verify_ne_cyclicBlock_callThenDefine :
    (∀ b, ReflTransGen callThenDefine.2.Leads callThenDefine.1 b →
      ¬ callThenDefine.2.NestedInItself b) ∧
    (∀ x y z w, ReflTransGen callThenDefine.2.Moves (.start callThenDefine.1) x →
      ReflTransGen callThenDefine.2.Moves x y → callThenDefine.2.Jumps y z →
      ReflTransGen callThenDefine.2.Moves z w → w.block ≠ x.block) ∧
    callThenDefine.2.verify callThenDefine.1 ≠ .error (.error (.ofFault .cyclicBlock)) := by
  have hnested : ∀ b, ¬ callThenDefine.2.NestedInItself b :=
    Program.not_nestedInItself recursiveRank (by decide +kernel)
  have hcalled : ∀ x y z w, ReflTransGen callThenDefine.2.Moves (.start callThenDefine.1) x →
      ReflTransGen callThenDefine.2.Moves x y → callThenDefine.2.Jumps y z →
      ReflTransGen callThenDefine.2.Moves z w → w.block ≠ x.block := by
    intro x y z w hx hxy hyz hzw
    have hnew : ⟨0⟩ ∉ x.entered := by
      obtain ⟨hf, hnew⟩ := hyz
      exact fun hmem => hnew (callThenDefine_func (.inr hf) ▸ Program.entered_subset hxy hmem)
    have hroot : x.block = ⟨2⟩ := (callThenDefine_walk hx).resolve_right hnew
    rw [hroot]
    rcases hzw.cases_tail with rfl | ⟨v, -, hvw⟩
    · exact (callThenDefine_moves (.inr hyz)).1
    · exact (callThenDefine_moves hvw).1
  exact ⟨fun b _ => hnested b, hcalled, verify_ne_cyclicBlock _ _ (fun b _ => hnested b) hcalled⟩

end CallThenDefine

/-- **Recursion through a shared block is refused or not by the order of two statements.** No
block is nested in itself. With the definition first the program verifies; with the shared
block first the verifier calls it cyclic. -/
theorem shared_block_called_cyclic :
    (∀ b, ¬ defineThenShare.2.NestedInItself b) ∧ (∀ b, ¬ shareThenDefine.2.NestedInItself b) ∧
      defineThenShare.2.verify defineThenShare.1 = .ok () ∧
      shareThenDefine.2.verify shareThenDefine.1 = .error (.error (.ofFault .cyclicBlock)) :=
  ⟨Program.not_nestedInItself recursiveRank (by decide +kernel),
    Program.not_nestedInItself recursiveRank (by decide +kernel), by decide +kernel, by decide +kernel⟩

end StagedGraph
