import StagedGraph.Dump.Printer

/-!
# What a printer keeps, and what it needs

A printer changes its depth, its path and its error while it walks, and changes them back. Here are
the same steps without any of this (`printBlock`): the depth and the path are given to a step, and an
error ends it. Proofs are about these steps.

A step of a printer follows such a step (`Follows`) if it leaves the printer as it was, but for the
text that was added, and for the error where there is one. Depth and path are restored at the end of
every step (`Follows.nested`, `visitBlock_follows`). After an error the walk goes on, and all that it
may still do is to add text (`Quiet`), which the visit takes back. So a visit ends as `printBlock`
does, whatever the visits before it have left in the printer, and leaves nothing behind but the text
(`visit_of_writes`).
-/

namespace StagedGraph

variable {R H α : Type}

/-- A printing step that is given what it depends on: it adds to an emitter, and may end in an
error. -/
abbrev Print := ExceptT PrintError (StateM Emitter) Unit

namespace Print

/-- The step ends with this result and adds this text, whatever was printed before. -/
def Writes (x : Print) (r : Except PrintError Unit) (s : String) : Prop :=
  ∀ out : Emitter, x.run.run out = (r, out.emit s)

variable {x y : Print} {r : Except PrintError Unit} {s t : String}

theorem emit_emit (out : Emitter) (s t : String) : (out.emit s).emit t = out.emit (s ++ t) := by
  simp [Emitter.emit, String.append_assoc]

theorem emit_empty (out : Emitter) : out.emit "" = out := by
  rw [Emitter.emit, String.append_empty]

theorem Writes.unique {r' : Except PrintError Unit} (h : Writes x r s) (h' : Writes x r' t) :
    r = r' :=
  congrArg Prod.fst ((h .empty).symm.trans (h' .empty))

theorem Writes.text_unique {r' : Except PrintError Unit} (h : Writes x r s) (h' : Writes x r' t) :
    s = t := by
  have htext := congrArg (fun q => q.2.text) ((h .empty).symm.trans (h' .empty))
  simpa [Emitter.emit, Emitter.empty] using htext

theorem Writes.done : Writes (pure ()) (.ok ()) "" := fun out => by
  rw [emit_empty]
  rfl

theorem Writes.throw (e : PrintError) : Writes (throw e) (.error e) "" := fun out => by
  rw [emit_empty]
  rfl

/-- One step after another; the second is not taken if the first fails. -/
theorem bind_run (x y : Print) (out : Emitter) :
    (x >>= fun _ => y).run.run out = match x.run.run out with
      | (.ok (), out) => y.run.run out
      | (.error e, out) => (.error e, out) := by
  change (match x.run.run out with | (a, out) => (ExceptT.bindCont (fun _ => y) a).run out) = _
  rcases x.run.run out with ⟨_ | _, out⟩ <;> rfl

theorem Writes.bind (hx : Writes x (.ok ()) s) (hy : Writes y r t) :
    Writes (x >>= fun _ => y) r (s ++ t) := fun out => by
  rw [bind_run, hx out]
  dsimp only
  rw [hy, emit_emit]

theorem Writes.bind_error {e : PrintError} (hx : Writes x (.error e) s) :
    Writes (x >>= fun _ => y) (.error e) s := fun out => by
  rw [bind_run, hx out]

end Print

namespace Printer

open Print

/-! ### Steps that are given their depth and their path -/

/-- A line of text at a depth. -/
def line (width depth : Nat) (s : String) : Print :=
  modify fun e => ((e.indent (depth * width)).emit s).newline

/-- Prints an expression: a line for it, and its operands one deeper. -/
def printExpr (p : Program R H) (width : Nat) : Nat → Nat → ExprId → Print
  | 0, _, _ => throw .tooDeep
  | fuel + 1, depth, e =>
    match p.expr e with
    | .literal _ => line width depth "Literal <opaque>"
    | .var x => line width depth ("Var " ++ p.text x)
    | .neg operand => do
      line width depth "Neg"
      printExpr p width fuel (depth + 1) operand
    | .invoke callee args => do
      line width depth ("Invoke " ++ p.calleeName callee)
      args.forM (printExpr p width fuel (depth + 1))

/-- A condition and the block that depends on it, each under a heading. -/
def printGuarded (width depth : Nat) (expr : Nat → ExprId → Print) (block : Nat → BlockId → Print)
    (kind heading : String) (cond : ExprId) (b : BlockId) : Print := do
  line width depth kind
  line width (depth + 1) "cond:"
  expr (depth + 2) cond
  line width (depth + 1) heading
  block (depth + 2) b

/-- Prints a statement, given how its parts are printed. -/
def printStmt (p : Program R H) (width depth : Nat) (expr : Nat → ExprId → Print)
    (block : Nat → BlockId → Print) : Stmt → Print
  | .expr e => do
    line width depth "ExprStmt"
    expr (depth + 1) e
  | .assign x e => do
    line width depth ("Assign " ++ p.text x)
    expr (depth + 1) e
  | .ifThen cond b => printGuarded width depth expr block "If" "then:" cond b
  | .whileLoop cond b => printGuarded width depth expr block "While" "body:" cond b
  | .breakLoop => line width depth "Break"
  | .returnValue none => line width depth "Return"
  | .returnValue (some e) => do
    line width depth "Return"
    expr (depth + 1) e
  | .funcDef f => do
    line width depth (funcHeader p f)
    block (depth + 1) (p.func f).body

/-- Prints a block under the blocks of a path. -/
def printBlock (p : Program R H) (width : Nat) : Nat → List BlockId → Nat → BlockId → Print
  | 0, _, _, _ => throw .tooDeep
  | fuel + 1, path, depth, b =>
    if b ∈ path then throw (.cycle b)
    else do
      line width depth "BasicBlock"
      let expr := printExpr p width (p.exprs.size + 1)
      (p.block b).forM (printStmt p width (depth + 1) expr (printBlock p width fuel (b :: path)))

/-! ### Steps of a printer -/

/-- The printer after a step. -/
def Step.after (x : Step) (pr : Printer) : Printer := (x.run pr).2

/-- A printer with more text. -/
def emit (pr : Printer) (s : String) : Printer := { pr with out := pr.out.emit s }

/-- Once there is an error, the step only adds text. -/
def Quiet (x : Step) : Prop := ∀ pr : Printer, pr.error ≠ none → ∃ t, x.after pr = pr.emit t

/-- The printer after a step that ends with this result: it has the text, if there is no error, and
else it has the error and any text. -/
def Leaves (pr : Printer) (r : Except PrintError Unit) (s : String) (pr' : Printer) : Prop :=
  match r with
  | .ok () => pr' = pr.emit s
  | .error e => ∃ t, pr' = { pr.emit t with error := some e }

/-- The step of a printer ends as `y` does, where the printer is at this depth and on this path. -/
def Follows (x : Step) (width depth : Nat) (path : List BlockId) (y : Print) : Prop :=
  ∃ r s, Writes y r s ∧ ∀ pr : Printer, pr.width = width → pr.depth = depth → pr.path = path →
    pr.error = none → Leaves pr r s (x.after pr)

variable {p : Program R H} {width depth fuel : Nat} {path : List BlockId} {x x' : Step} {y y' : Print}
  {as : List α}

theorem after_bind (x x' : Step) (pr : Printer) :
    Step.after (x >>= fun _ => x') pr = x'.after (x.after pr) := rfl

theorem emit_text (pr : Printer) (s t : String) : (pr.emit s).emit t = pr.emit (s ++ t) := by
  rw [emit, emit, emit, emit_emit]

theorem emit_nothing (pr : Printer) : pr.emit "" = pr := by
  rw [emit, emit_empty]

/-! ### After an error -/

theorem quiet_writeLine (s : String) : Quiet (writeLine s) := fun pr _ =>
  ⟨String.ofList (List.replicate (pr.depth * pr.width) ' ') ++ s ++ "\n", by
    rw [emit, ← emit_emit, ← emit_emit]
    rfl⟩

theorem quiet_fail (e : PrintError) : Quiet (fail e) := fun pr herror => by
  obtain ⟨e', he'⟩ := Option.ne_none_iff_exists'.1 herror
  refine ⟨"", ?_⟩
  rw [emit_nothing]
  change { pr with error := pr.error.or (some e) } = pr
  rw [he', Option.some_or, ← he']

theorem Quiet.bind (hx : Quiet x) (hx' : Quiet x') : Quiet (x >>= fun _ => x') := fun pr herror => by
  obtain ⟨s, hs⟩ := hx pr herror
  obtain ⟨t, ht⟩ := hx' (pr.emit s) herror
  exact ⟨s ++ t, by rw [after_bind, hs, ht, emit_text]⟩

theorem Quiet.nested (hx : Quiet x) : Quiet (nested x) := fun pr herror => by
  obtain ⟨t, ht⟩ := hx { pr with depth := pr.depth + 1 } herror
  refine ⟨t, ?_⟩
  change (fun pr' : Printer => { pr' with depth := pr'.depth - 1 })
    (x.after { pr with depth := pr.depth + 1 }) = _
  rw [ht]
  rfl

theorem Quiet.headed (hx : Quiet x) (s : String) : Quiet (headed s x) := (quiet_writeLine s).bind hx.nested

theorem quiet_unlessFailed (x : Step) : Quiet (unlessFailed x) := fun pr herror => by
  refine ⟨"", ?_⟩
  rw [emit_nothing]
  obtain ⟨e, he⟩ := Option.ne_none_iff_exists'.1 herror
  change ((if pr.error.isNone then x else pure ()) : Step).after pr = pr
  rw [he]
  rfl

theorem Quiet.forM {f : α → Step} (hf : ∀ a, Quiet (f a)) : Quiet (as.forM f) := by
  induction as with
  | nil => exact fun pr _ => ⟨"", (emit_nothing pr).symm⟩
  | cons a as ih => exact (hf a).bind ih

theorem quiet_visitExpr (p : Program R H) (fuel : Nat) (e : ExprId) : Quiet (visitExpr p fuel e) := by
  induction fuel generalizing e with
  | zero => exact quiet_fail _
  | succ fuel ih =>
    rw [visitExpr]
    split
    · exact quiet_writeLine _
    · exact quiet_writeLine _
    · exact (ih _).headed _
    · exact (Quiet.forM ih).headed _

theorem quiet_visitBlock (p : Program R H) (fuel : Nat) (b : BlockId) : Quiet (visitBlock p fuel b) := by
  cases fuel with
  | zero => exact quiet_fail _
  | succ fuel => exact quiet_unlessFailed _

/-! ### Before an error -/

theorem Follows.done : Follows (pure ()) width depth path (pure ()) :=
  ⟨_, _, .done, fun pr _ _ _ _ => (emit_nothing pr).symm⟩

theorem follows_fail (e : PrintError) : Follows (fail e) width depth path (throw e) := by
  refine ⟨_, _, .throw e, fun pr _ _ _ hnone => ⟨"", ?_⟩⟩
  change { pr with error := pr.error.or (some e) } = _
  rw [hnone, emit_nothing]
  rfl

theorem line_writes (width depth : Nat) (s : String) :
    Writes (line width depth s) (.ok ())
      (String.ofList (List.replicate (depth * width) ' ') ++ s ++ "\n") := fun out => by
  rw [← emit_emit, ← emit_emit]
  rfl

theorem follows_writeLine (s : String) : Follows (writeLine s) width depth path (line width depth s) := by
  refine ⟨_, _, line_writes width depth s, fun pr hwidth hdepth _ _ => ?_⟩
  subst hwidth hdepth
  rw [Leaves, emit, ← emit_emit, ← emit_emit]
  rfl

/-- On one path, steps that do the same follow the same. -/
theorem Follows.congr (hx : Follows x width depth path y)
    (h : ∀ pr : Printer, pr.path = path → x'.after pr = x.after pr) :
    Follows x' width depth path y := by
  obtain ⟨r, s, hy, hleaves⟩ := hx
  refine ⟨r, s, hy, fun pr hwidth hdepth hpath hnone => ?_⟩
  rw [h pr hpath]
  exact hleaves pr hwidth hdepth hpath hnone

/-- Steps after one another follow steps after one another, if the second adds no more than text to a
failure of the first. -/
theorem Follows.bind (hx : Follows x width depth path y) (hx' : Follows x' width depth path y')
    (hquiet : Quiet x') : Follows (x >>= fun _ => x') width depth path (y >>= fun _ => y') := by
  obtain ⟨r, s, hy, hleaves⟩ := hx
  obtain ⟨r', s', hy', hleaves'⟩ := hx'
  rcases r with e | u
  · refine ⟨_, _, hy.bind_error, fun pr hwidth hdepth hpath hnone => ?_⟩
    obtain ⟨t, ht⟩ := hleaves pr hwidth hdepth hpath hnone
    obtain ⟨t', ht'⟩ := hquiet (x.after pr) (by rw [ht]; exact Option.some_ne_none e)
    refine ⟨t ++ t', ?_⟩
    rw [after_bind, ht', ht, ← emit_text]
    rfl
  · refine ⟨_, _, hy.bind hy', fun pr hwidth hdepth hpath hnone => ?_⟩
    have hpr : x.after pr = pr.emit s := hleaves pr hwidth hdepth hpath hnone
    have hthen := hleaves' (pr.emit s) hwidth hdepth hpath hnone
    rw [after_bind, hpr]
    rcases r' with e | u'
    · obtain ⟨t, ht⟩ := hthen
      exact ⟨s ++ t, by rw [ht, emit_text]⟩
    · exact hthen.trans (emit_text pr s s')

/-- The depth is restored. -/
theorem Follows.nested (hx : Follows x width (depth + 1) path y) : Follows (nested x) width depth path y := by
  obtain ⟨r, s, hy, hleaves⟩ := hx
  refine ⟨r, s, hy, fun pr hwidth hdepth hpath hnone => ?_⟩
  have hinner := hleaves { pr with depth := pr.depth + 1 } hwidth (congrArg (· + 1) hdepth) hpath hnone
  have hafter : (Printer.nested x).after pr = { x.after { pr with depth := pr.depth + 1 } with
    depth := (x.after { pr with depth := pr.depth + 1 }).depth - 1 } := rfl
  rw [hafter]
  rcases r with e | u
  · obtain ⟨t, ht⟩ := hinner
    exact ⟨t, by rw [ht]; rfl⟩
  · have hinner : x.after { pr with depth := pr.depth + 1 } = _ := hinner
    rw [hinner]
    rfl

theorem Follows.headed (hx : Follows x width (depth + 1) path y) (hquiet : Quiet x) (s : String) :
    Follows (headed s x) width depth path (line width depth s >>= fun _ => y) :=
  (follows_writeLine s).bind hx.nested hquiet.nested

theorem Follows.unlessFailed (hx : Follows x width depth path y) :
    Follows (unlessFailed x) width depth path y := by
  obtain ⟨r, s, hy, hleaves⟩ := hx
  refine ⟨r, s, hy, fun pr hwidth hdepth hpath hnone => ?_⟩
  have hafter : (Printer.unlessFailed x).after pr = x.after pr := by
    change ((if pr.error.isNone then x else pure ()) : Step).after pr = _
    rw [hnone]
    rfl
  rw [hafter]
  exact hleaves pr hwidth hdepth hpath hnone

theorem Follows.forM {f : α → Step} {g : α → Print} (h : ∀ a, Follows (f a) width depth path (g a))
    (hquiet : ∀ a, Quiet (f a)) : Follows (as.forM f) width depth path (as.forM g) := by
  induction as with
  | nil => exact .done
  | cons a as ih => exact (h a).bind ih (.forM hquiet)

theorem visitExpr_follows (p : Program R H) (width : Nat) (path : List BlockId) (fuel depth : Nat)
    (e : ExprId) : Follows (visitExpr p fuel e) width depth path (printExpr p width fuel depth e) := by
  induction fuel generalizing depth e with
  | zero => exact follows_fail _
  | succ fuel ih =>
    rw [visitExpr, printExpr]
    cases p.expr e with
    | literal v => exact follows_writeLine _
    | var x => exact follows_writeLine _
    | neg operand => exact (ih _ _).headed (quiet_visitExpr p fuel _) _
    | invoke callee args =>
      exact (Follows.forM (ih _) (quiet_visitExpr p fuel)).headed (.forM (quiet_visitExpr p fuel)) _

section

variable {expr : ExprId → Step} {block : BlockId → Step} {expr' : Nat → ExprId → Print}
  {block' : Nat → BlockId → Print}

theorem visitStmt_follows (hexpr : ∀ d e, Follows (expr e) width d path (expr' d e))
    (hblock : ∀ d b, Follows (block b) width d path (block' d b)) (hquiet : ∀ e, Quiet (expr e))
    (hquiet' : ∀ b, Quiet (block b)) (s : Stmt) :
    Follows (visitStmt p expr block s) width depth path (printStmt p width depth expr' block' s) := by
  have hguarded (kind heading : String) (cond : ExprId) (b : BlockId) :
      Follows (headed kind do
          headed "cond:" (expr cond)
          headed heading (block b)) width depth path
        (printGuarded width depth expr' block' kind heading cond b) := by
    have hcond := (hexpr (depth + 2) cond).headed (hquiet cond) "cond:"
    have hthen := (hblock (depth + 2) b).headed (hquiet' b) heading
    have hboth := hcond.bind hthen ((hquiet' b).headed heading)
    rw [bind_assoc] at hboth
    exact hboth.headed (((hquiet cond).headed _).bind ((hquiet' b).headed _)) kind
  refine Follows.unlessFailed ?_
  cases s with
  | expr e => exact (hexpr _ e).headed (hquiet e) _
  | assign x e => exact (hexpr _ e).headed (hquiet e) _
  | ifThen cond b => exact hguarded "If" "then:" cond b
  | whileLoop cond b => exact hguarded "While" "body:" cond b
  | breakLoop => exact follows_writeLine _
  | returnValue e =>
    cases e with
    | none => exact follows_writeLine _
    | some e => exact (hexpr _ e).headed (hquiet e) _
  | funcDef f => exact (hblock _ _).headed (hquiet' _) _

end

/-- The path is restored. -/
theorem Follows.entered {b : BlockId} (hx : Follows x width depth (b :: path) y) :
    Follows (do
        modify fun pr => { pr with path := b :: pr.path }
        x
        modify fun pr => { pr with path := pr.path.erase b }) width depth path y := by
  obtain ⟨r, s, hy, hleaves⟩ := hx
  refine ⟨r, s, hy, fun pr hwidth hdepth hpath hnone => ?_⟩
  have hinner := hleaves { pr with path := b :: pr.path } hwidth hdepth (congrArg (b :: ·) hpath) hnone
  change Leaves pr r s { x.after { pr with path := b :: pr.path } with
    path := (x.after { pr with path := b :: pr.path }).path.erase b }
  rcases r with e | u
  · obtain ⟨t, ht⟩ := hinner
    refine ⟨t, ?_⟩
    rw [ht]
    simp [emit, List.erase_cons_head]
  · have hinner : x.after { pr with path := b :: pr.path } = _ := hinner
    rw [hinner]
    simp [Leaves, emit, List.erase_cons_head]

/-- **A printer walks through a block as one that is given the path and the depth.** -/
theorem visitBlock_follows (p : Program R H) (width fuel : Nat) (path : List BlockId) (depth : Nat)
    (b : BlockId) : Follows (visitBlock p fuel b) width depth path (printBlock p width fuel path depth b) := by
  induction fuel generalizing path depth b with
  | zero => exact follows_fail _
  | succ fuel ih =>
    have hstmts : Follows ((p.block b).forM
          (visitStmt p (visitExpr p (p.exprs.size + 1)) (visitBlock p fuel))) width (depth + 1) (b :: path)
        ((p.block b).forM (printStmt p width (depth + 1) (printExpr p width (p.exprs.size + 1))
          (printBlock p width fuel (b :: path)))) :=
      .forM (fun s => visitStmt_follows (visitExpr_follows p width _ _) (ih _) (quiet_visitExpr p _)
        (quiet_visitBlock p fuel) s) fun s => quiet_unlessFailed _
    rw [visitBlock, printBlock]
    refine Follows.unlessFailed ?_
    split
    · next hb =>
      refine (follows_fail (.cycle b)).congr fun pr hpath => ?_
      subst hpath
      change ((if b ∈ pr.path then fail (.cycle b) else _) : Step).after pr = _
      rw [if_pos hb]
    · next hb =>
      have hunder := (hstmts.headed (.forM fun s => quiet_unlessFailed _) "BasicBlock").entered
      refine hunder.congr fun pr hpath => ?_
      subst hpath
      change ((if b ∈ pr.path then _ else _) : Step).after pr = _
      rw [if_neg hb]

/-- **A visit ends as the walk does that is given its path and its depth**, whatever the visits before it
have left in the printer. If it fails it leaves nothing behind, and else the text. -/
theorem visit_of_writes {pr : Printer} {b : BlockId} {r : Except PrintError Unit} {s : String}
    (h : Writes (printBlock p pr.width (p.blocks.size + 1) [] 0 b) r s) :
    pr.visit p b = (r, idle pr.width (match r with
      | .ok () => pr.out.emit s
      | .error _ => pr.out)) := by
  obtain ⟨r', s', hy, hleaves⟩ := visitBlock_follows p pr.width (p.blocks.size + 1) [] 0 b
  obtain rfl := h.unique hy
  obtain rfl := h.text_unique hy
  have hafter := hleaves { pr with depth := 0, path := [], error := none } rfl rfl rfl rfl
  have hvisit : pr.visit p b = ending pr.out.mark ((visitBlock p (p.blocks.size + 1) b).after
      { pr with depth := 0, path := [], error := none }) := rfl
  rw [hvisit]
  rcases r with e | u
  · obtain ⟨t, ht⟩ := hafter
    rw [ht]
    simp [ending, emit, idle, Emitter.rewind_emit]
  · have hafter : _ = _ := hafter
    rw [hafter]
    rfl

end Printer

end StagedGraph
