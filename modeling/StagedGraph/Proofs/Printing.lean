import Mathlib.Data.List.Nodup
import Mathlib.Data.List.Perm.Subperm
import StagedGraph.Proofs.Building
import StagedGraph.Proofs.PlainPrinting

/-!
# When a block has a text

Every step of the printer ends in the same way and adds the same text, whatever was printed
before it (`Print.Writes`, `printBlock_definite`). Hence a sequence of steps succeeds exactly
if each of them does, and a block is printed exactly if all that stands inside it is.

A block has a text exactly if no block at it or inside it is nested in itself
(`print_succeeds_iff`). One half is that a block which is printed has all its blocks printed
with less fuel, so that nesting ends there. The other half is that without such a block the
path of the printer never repeats, so that it is no longer than the program has blocks.
-/

namespace StagedGraph

open Relation

variable {R H α : Type}

namespace Print

/-- How the step ends and what it adds do not depend on what was printed before. -/
def Definite (x : Print) : Prop := ∃ r s, Writes x r s

/-- The step ends without an error. -/
def Succeeds (x : Print) : Prop := ∃ s, Writes x (.ok ()) s

variable {x y : Print} {r : Except PrintError Unit} {s t : String}

theorem Succeeds.definite (h : Succeeds x) : Definite x := ⟨.ok (), h⟩

theorem Definite.bind (hx : Definite x) (hy : Definite y) : Definite (x >>= fun _ => y) := by
  obtain ⟨_ | _, s, hx⟩ := hx
  · exact ⟨_, s, hx.bind_error⟩
  · obtain ⟨r, t, hy⟩ := hy
    exact ⟨r, s ++ t, hx.bind hy⟩

/-- Two steps succeed exactly if each of them does. -/
theorem succeeds_bind_iff (hx : Definite x) (hy : Definite y) :
    Succeeds (x >>= fun _ => y) ↔ Succeeds x ∧ Succeeds y := by
  refine ⟨fun ⟨u, h⟩ => ?_, fun ⟨⟨s, hx⟩, ⟨t, hy⟩⟩ => ⟨s ++ t, hx.bind hy⟩⟩
  obtain ⟨_ | _, s, hx⟩ := hx
  · cases hx.bind_error.unique h
  · obtain ⟨r, t, hy⟩ := hy
    obtain rfl := (hx.bind hy).unique h
    exact ⟨⟨s, hx⟩, ⟨t, hy⟩⟩

variable {as : List α} {f : α → Print}

theorem Definite.forM (h : ∀ a ∈ as, Definite (f a)) : Definite (as.forM f) := by
  induction as with
  | nil => exact ⟨_, _, .done⟩
  | cons a as ih =>
    exact (h a List.mem_cons_self).bind (ih fun b hb => h b (List.mem_cons_of_mem a hb))

/-- Steps in a row succeed exactly if all of them do. -/
theorem succeeds_forM_iff (h : ∀ a ∈ as, Definite (f a)) :
    Succeeds (as.forM f) ↔ ∀ a ∈ as, Succeeds (f a) := by
  induction as with
  | nil => exact ⟨nofun, fun _ => ⟨_, .done⟩⟩
  | cons a as ih =>
    have has : ∀ b ∈ as, Definite (f b) := fun b hb => h b (List.mem_cons_of_mem a hb)
    change Succeeds (f a >>= fun _ => as.forM f) ↔ _
    rw [succeeds_bind_iff (h a List.mem_cons_self) (.forM has), ih has, List.forall_mem_cons]

end Print

namespace Printer

open Print

variable {p : Program R H} {width fuel depth : Nat} {path : List BlockId} {b c : BlockId}

/-! ### Lines and expressions -/

theorem line_succeeds (width depth : Nat) (s : String) : Succeeds (line width depth s) :=
  ⟨_, line_writes width depth s⟩

/-- What is printed after a line decides whether both succeed. -/
theorem line_bind_succeeds_iff {y : Print} (hy : Definite y) (s : String) :
    Succeeds (line width depth s >>= fun _ => y) ↔ Succeeds y := by
  rw [succeeds_bind_iff (line_succeeds ..).definite hy]
  exact and_iff_right (line_succeeds ..)

theorem printExpr_definite (p : Program R H) (width fuel depth : Nat) (e : ExprId) :
    Definite (printExpr p width fuel depth e) := by
  induction fuel generalizing depth e with
  | zero => exact ⟨_, _, .throw _⟩
  | succ fuel ih =>
    rw [printExpr]
    split
    · exact (line_succeeds ..).definite
    · exact (line_succeeds ..).definite
    · exact (line_succeeds ..).definite.bind (ih _ _)
    · exact (line_succeeds ..).definite.bind (.forM fun a _ => ih _ a)

/-- An expression has a text, since its operands are older. -/
theorem printExpr_succeeds (hp : p.Layered) {e : ExprId} (hfuel : min e.index p.exprs.size < fuel)
    (depth : Nat) : Succeeds (printExpr p width fuel depth e) := by
  induction fuel generalizing depth e with
  | zero => exact absurd hfuel (Nat.not_lt_zero _)
  | succ fuel ih =>
    have hoperand {a : ExprId} (ha : a ∈ (p.expr e).operands) (depth : Nat) :
        Succeeds (printExpr p width fuel depth a) := by
      have holder := hp e a ha
      have hsize := Program.Operand.lt_size ha
      exact ih (by omega) depth
    rw [printExpr]
    split
    · exact line_succeeds ..
    · exact line_succeeds ..
    · next operand he =>
      rw [line_bind_succeeds_iff (printExpr_definite ..)]
      exact hoperand (by rw [he]; exact List.mem_singleton_self _) _
    · next callee args he =>
      have hargs := fun a (_ : a ∈ args) => printExpr_definite p width fuel (depth + 1) a
      rw [line_bind_succeeds_iff (.forM hargs), succeeds_forM_iff hargs]
      exact fun a ha => hoperand (by rwa [he]) _

/-! ### Statements and blocks -/

/-- How much deeper than a statement the blocks inside it are printed. -/
def nestedDepth : Stmt → Nat
  | .funcDef _ => 1
  | _ => 2

section

variable {expr : Nat → ExprId → Print} {block : Nat → BlockId → Print}

theorem printStmt_definite (p : Program R H) (width depth : Nat)
    (hexpr : ∀ d e, Definite (expr d e)) (hblock : ∀ d b, Definite (block d b)) (s : Stmt) :
    Definite (printStmt p width depth expr block s) := by
  have hline {depth : Nat} {s : String} : Definite (line width depth s) :=
    (line_succeeds ..).definite
  cases s with
  | expr e => exact hline.bind (hexpr _ _)
  | assign x e => exact hline.bind (hexpr _ _)
  | ifThen | whileLoop =>
    exact hline.bind (hline.bind ((hexpr _ _).bind (hline.bind (hblock _ _))))
  | breakLoop => exact hline
  | returnValue e =>
    cases e with
    | none => exact hline
    | some e => exact hline.bind (hexpr _ _)
  | funcDef f => exact hline.bind (hblock _ _)

/-- A statement has a text exactly if the blocks inside it have one. -/
theorem printStmt_succeeds_iff (hexpr : ∀ d e, Succeeds (expr d e))
    (hblock : ∀ d b, Definite (block d b)) (s : Stmt) :
    Succeeds (printStmt p width depth expr block s) ↔
      ∀ c ∈ s.nested p, Succeeds (block (depth + nestedDepth s) c) := by
  have hguarded (kind heading : String) (cond : ExprId) (b : BlockId) :
      Succeeds (printGuarded width depth expr block kind heading cond b) ↔
        ∀ c ∈ [b], Succeeds (block (depth + 2) c) := by
    have hthen : Definite (line width (depth + 1) heading >>= fun _ => block (depth + 2) b) :=
      (line_succeeds ..).definite.bind (hblock _ _)
    have hcond := (hexpr (depth + 2) cond).definite
    rw [printGuarded, line_bind_succeeds_iff ((line_succeeds ..).definite.bind (hcond.bind hthen)),
      line_bind_succeeds_iff (hcond.bind hthen), succeeds_bind_iff hcond hthen,
      line_bind_succeeds_iff (hblock _ _), List.forall_mem_singleton]
    exact and_iff_right (hexpr _ _)
  cases s with
  | expr e | assign x e =>
    exact ⟨nofun, fun _ => (line_bind_succeeds_iff (hexpr _ _).definite _).2 (hexpr _ _)⟩
  | ifThen cond b => exact hguarded _ _ cond b
  | whileLoop cond b => exact hguarded _ _ cond b
  | breakLoop => exact ⟨nofun, fun _ => line_succeeds ..⟩
  | returnValue e =>
    cases e with
    | none => exact ⟨nofun, fun _ => line_succeeds ..⟩
    | some e =>
      exact ⟨nofun, fun _ => (line_bind_succeeds_iff (hexpr _ _).definite _).2 (hexpr _ _)⟩
  | funcDef f =>
    have hbody : Succeeds (block (depth + 1) (p.func f).body) ↔
        ∀ c ∈ [(p.func f).body], Succeeds (block (depth + 1) c) := by
      rw [List.forall_mem_singleton]
    exact (line_bind_succeeds_iff (hblock _ _) _).trans hbody

end

theorem printBlock_definite (p : Program R H) (width fuel : Nat) (path : List BlockId)
    (depth : Nat) (b : BlockId) : Definite (printBlock p width fuel path depth b) := by
  induction fuel generalizing path depth b with
  | zero => exact ⟨_, _, .throw _⟩
  | succ fuel ih =>
    rw [printBlock]
    split
    · exact ⟨_, _, .throw _⟩
    · exact (line_succeeds ..).definite.bind
        (.forM fun s _ => printStmt_definite p width _ (printExpr_definite p width _) (ih _) s)

/-- A block has a text exactly if it is not on the path and the blocks inside it have one
under the longer path. -/
theorem printBlock_succeeds_iff (hp : p.Layered) :
    Succeeds (printBlock p width (fuel + 1) path depth b) ↔
      b ∉ path ∧ ∀ s ∈ p.block b, ∀ c ∈ s.nested p,
        Succeeds (printBlock p width fuel (b :: path) (depth + 1 + nestedDepth s) c) := by
  have hexpr (d : Nat) (e : ExprId) : Succeeds (printExpr p width (p.exprs.size + 1) d e) :=
    printExpr_succeeds hp (by omega) d
  have hblock := printBlock_definite p width fuel (b :: path)
  have hstmt := printStmt_definite p width (depth + 1) (fun d e => (hexpr d e).definite) hblock
  rw [printBlock]
  split
  · next hmem =>
    refine iff_of_false ?_ fun h => h.1 hmem
    rintro ⟨t, h⟩
    cases (Writes.throw _).unique h
  · next hmem =>
    rw [line_bind_succeeds_iff (.forM fun s _ => hstmt s), succeeds_forM_iff fun s _ => hstmt s]
    simp only [printStmt_succeeds_iff hexpr hblock]
    exact (and_iff_right hmem).symm

/-! ### Nesting ends -/

/-- Nesting ends at a block that has a text. -/
theorem acc_of_succeeds (hp : p.Layered) (h : Succeeds (printBlock p width fuel path depth b)) :
    Acc (fun c b => p.Nests b c) b := by
  induction fuel generalizing path depth b with
  | zero =>
    obtain ⟨t, h⟩ := h
    cases (Writes.throw _).unique h
  | succ fuel ih =>
    obtain ⟨-, h⟩ := (printBlock_succeeds_iff hp).1 h
    refine .intro _ fun c hc => ?_
    obtain ⟨s, hs, hc⟩ := List.mem_flatMap.1 hc
    exact ih (h s hs c hc)

/-- Blocks of the program that are all different are not more than it has. -/
theorem length_le_size (hnodup : path.Nodup) (hsize : ∀ a ∈ path, a.index < p.blocks.size) :
    path.length ≤ p.blocks.size := by
  have hinj : Function.Injective (Ref.index (t := .block)) := fun _ _ h => by
    rwa [Ref.mk.injEq]
  have hsub : path.map Ref.index ⊆ List.range p.blocks.size := fun i hi => by
    obtain ⟨a, ha, rfl⟩ := List.mem_map.1 hi
    exact List.mem_range.2 (hsize a ha)
  simpa using (List.subperm_of_subset (hnodup.map hinj) hsub).length_le

/-- A block has a text if no block at it or inside it is nested in itself: the path only has
blocks that it is inside of, so that it would come to one of them again. -/
theorem printBlock_succeeds (hp : p.Layered) (hnodup : path.Nodup)
    (hpath : ∀ a ∈ path, TransGen p.Nests a b) (hfuel : p.blocks.size < path.length + fuel)
    (hacyclic : ∀ c, ReflTransGen p.Nests b c → ¬ p.NestedInItself c) (depth : Nat) :
    Succeeds (printBlock p width fuel path depth b) := by
  have hsize {a : BlockId} (ha : a ∈ path) : a.index < p.blocks.size := by
    obtain ⟨c, hac, -⟩ := TransGen.head'_iff.1 (hpath a ha)
    exact hac.lt_size
  induction fuel generalizing path depth b with
  | zero => exact absurd (length_le_size hnodup fun a => hsize) (by omega)
  | succ fuel ih =>
    have hb : b ∉ path := fun hb => hacyclic b .refl (hpath b hb)
    refine (printBlock_succeeds_iff hp).2 ⟨hb, fun s hs c hc => ?_⟩
    have hbc : p.Nests b c := List.mem_flatMap.2 ⟨s, hs, hc⟩
    refine ih (List.nodup_cons.2 ⟨hb, hnodup⟩) (fun a ha => ?_) ?_ (fun d hd => ?_) _ fun ha => ?_
    · rcases List.mem_cons.1 ha with rfl | ha
      · exact .single hbc
      · exact (hpath a ha).tail hbc
    · rw [List.length_cons]
      omega
    · exact hacyclic d (hd.head hbc)
    · rcases List.mem_cons.1 ha with rfl | ha
      · exact hbc.lt_size
      · exact hsize ha

/-- A visit succeeds exactly if the block is printed, whatever the printer holds. -/
theorem visit_ok_iff (pr : Printer) :
    (pr.visit p b).1 = .ok () ↔
      Succeeds (printBlock p pr.width (p.blocks.size + 1) [] 0 b) := by
  obtain ⟨r, t, h⟩ := printBlock_definite p pr.width (p.blocks.size + 1) [] 0 b
  have hr : (pr.visit p b).1 = r := congrArg Prod.fst (visit_of_writes h)
  rw [hr]
  exact ⟨fun hok => ⟨t, hok ▸ h⟩, fun ⟨_, h'⟩ => h.unique h'⟩

/-- **A printer can print a block exactly if no block at it or inside it is nested in
itself**, whatever it printed before. -/
theorem visit_succeeds_iff (hp : p.Layered) (pr : Printer) :
    (pr.visit p b).1 = .ok () ↔ ∀ c, ReflTransGen p.Nests b c → ¬ p.NestedInItself c := by
  rw [visit_ok_iff]
  refine ⟨fun h c hc => not_transGen_of_acc (acc_of_succeeds hp h) hc, fun h => ?_⟩
  exact printBlock_succeeds hp .nil nofun (by rw [List.length_nil]; omega) h 0

end Printer

/-- **A block has a text exactly if no block at it or inside it is nested in itself.** -/
theorem Program.print_succeeds_iff {p : Program R H} (hp : p.Layered) (root : BlockId) :
    (∃ text, p.print root = .ok text) ↔
      ∀ b, ReflTransGen p.Nests root b → ¬ p.NestedInItself b := by
  rw [← Printer.visit_succeeds_iff hp (.new Printer.defaultWidth), print]
  rcases (Printer.new Printer.defaultWidth).visit p root with ⟨_ | _, pr⟩
  · exact ⟨nofun, nofun⟩
  · exact ⟨fun _ => rfl, fun _ => ⟨_, rfl⟩⟩

end StagedGraph
