import StagedGraph.Proofs.DumpLines
import StagedGraph.Proofs.Printing
import StagedGraph.Proofs.Trees

/-!
# What a dump tells about a program

A dump does not show everything: a literal has no value in it, and of what is called it only has
the name. What is left of the tree of a block is its shape (`CodeShape`). It has the statements in
their order, how they are nested, the names of variables, of parameters and of what is called, and
the shapes of the expressions.

The shape is all there in the text, if the names are plain. A block that is printed unfolds into a
tree, and the text is that of the outline of its shape (`printBlock_shows`); a text belongs to one
outline, and an outline to one shape. So two blocks with one dump have one shape, whatever programs
they are of (`same_dump_same_shape`).
-/

namespace StagedGraph

variable {R R' H H' α τ : Type}

/-! ### Shapes -/

/-- An expression without the values of its literals; names are strings. -/
inductive TermShape where
  | literal
  | var (name : String)
  | invoke (callee : String) (args : List TermShape)
  | neg (operand : TermShape)

/-- A statement without the values of its literals; names are strings. -/
inductive CodeShape where
  | expr (t : TermShape)
  | assign (target : String) (value : TermShape)
  | ifThen (cond : TermShape) (thenBlock : List CodeShape)
  | whileLoop (cond : TermShape) (body : List CodeShape)
  | breakLoop
  | returnVoid
  | returnValue (value : TermShape)
  | funcDef (name : String) (params : List String) (body : List CodeShape)

mutual

/-- The shape of an expression of the program. -/
def Term.shape (p : Program R H) : Term R → TermShape
  | .literal _ => .literal
  | .var x => .var (p.text x)
  | .invoke callee args => .invoke (p.calleeName callee) (Term.shapes p args)
  | .neg t => .neg (t.shape p)

/-- The shapes of several expressions. -/
def Term.shapes (p : Program R H) : List (Term R) → List TermShape
  | [] => []
  | t :: ts => t.shape p :: Term.shapes p ts

end

mutual

/-- The shape of a statement of the program. -/
def Code.shape (p : Program R H) : Code R → CodeShape
  | .expr t => .expr (t.shape p)
  | .assign x t => .assign (p.text x) (t.shape p)
  | .ifThen t cs => .ifThen (t.shape p) (Code.shapes p cs)
  | .whileLoop t cs => .whileLoop (t.shape p) (Code.shapes p cs)
  | .breakLoop => .breakLoop
  | .returnVoid => .returnVoid
  | .returnValue t => .returnValue (t.shape p)
  | .funcDef f params cs => .funcDef (p.funcName f) (params.map p.text) (Code.shapes p cs)

/-- The shapes of the statements of a block. -/
def Code.shapes (p : Program R H) : List (Code R) → List CodeShape
  | [] => []
  | c :: cs => c.shape p :: Code.shapes p cs

end

/-! ### Places have one tree -/

mutual

theorem Term.At.unique {p : Program R H} {t t' : Term R} {e : ExprId} :
    t.At p e → t'.At p e → t = t'
  | .literal h, h' => by
    cases h' with
    | literal h' => rw [Expr.literal.inj (h.symm.trans h')]
    | var h' | invoke h' | neg h' => cases h.symm.trans h'
  | .var h, h' => by
    cases h' with
    | var h' => rw [Expr.var.inj (h.symm.trans h')]
    | literal h' | invoke h' | neg h' => cases h.symm.trans h'
  | .invoke h hargs, h' => by
    cases h' with
    | invoke h' hargs' =>
      obtain ⟨rfl, rfl⟩ := Expr.invoke.inj (h.symm.trans h')
      rw [Term.at_list_unique hargs hargs']
    | literal h' | var h' | neg h' => cases h.symm.trans h'
  | .neg h ht, h' => by
    cases h' with
    | neg h' ht' =>
      obtain rfl := Expr.neg.inj (h.symm.trans h')
      rw [ht.unique ht']
    | literal h' | var h' | invoke h' => cases h.symm.trans h'

theorem Term.at_list_unique {p : Program R H} {ts ts' : List (Term R)} {es : List ExprId} :
    List.Forall₂ (Term.At p) ts es → List.Forall₂ (Term.At p) ts' es → ts = ts'
  | .nil, .nil => rfl
  | .cons h hs, .cons h' hs' => by rw [h.unique h', Term.at_list_unique hs hs']

end

mutual

theorem Code.At.unique {p : Program R H} {c c' : Code R} {s : Stmt} :
    c.At p s → c'.At p s → c = c'
  | .expr h, .expr h' => by rw [h.unique h']
  | .assign h, .assign h' => by rw [h.unique h']
  | .ifThen h hs, .ifThen h' hs' => by rw [h.unique h', Code.at_list_unique hs hs']
  | .whileLoop h hs, .whileLoop h' hs' => by rw [h.unique h', Code.at_list_unique hs hs']
  | .breakLoop, .breakLoop => rfl
  | .returnVoid, .returnVoid => rfl
  | .returnValue h, .returnValue h' => by rw [h.unique h']
  | .funcDef hs, .funcDef hs' => by rw [Code.at_list_unique hs hs']

theorem Code.at_list_unique {p : Program R H} {cs cs' : List (Code R)} {ss : List Stmt} :
    List.Forall₂ (Code.At p) cs ss → List.Forall₂ (Code.At p) cs' ss → cs = cs'
  | .nil, .nil => rfl
  | .cons h hs, .cons h' hs' => by rw [h.unique h', Code.at_list_unique hs hs']

end

/-! ### Outlines of shapes -/

namespace TermShape

/-- The line of an expression. -/
def line : TermShape → Line
  | literal => .plain .literal
  | var x => .named .var x
  | invoke f _ => .named .invoke f
  | neg _ => .plain .neg

mutual

/-- What stands under the line of an expression. -/
def under : TermShape → Outline Line
  | literal => .nil
  | var _ => .nil
  | invoke _ args => outline args
  | neg t => .entry t.line t.under .nil

/-- The lines of several expressions. -/
def outline : List TermShape → Outline Line
  | [] => .nil
  | t :: ts => .entry t.line t.under (outline ts)

end

mutual

theorem eq_of_lines : ∀ {t t' : TermShape}, t.line = t'.line → t.under = t'.under → t = t'
  | literal, t', hline, _ => by
    cases t' with
    | literal => rfl
    | var | invoke | neg => cases hline
  | var x, t', hline, _ => by
    cases t' with
    | var y => rw [(Line.named.inj hline).2]
    | literal | invoke | neg => cases hline
  | invoke f args, t', hline, hunder => by
    cases t' with
    | invoke g args' => rw [(Line.named.inj hline).2, outline_injective hunder]
    | literal | var | neg => cases hline
  | neg t, t', hline, hunder => by
    cases t' with
    | neg t' =>
      obtain ⟨hline, hunder, -⟩ := Outline.entry.inj hunder
      rw [eq_of_lines hline hunder]
    | literal | var | invoke => cases hline

theorem outline_injective : ∀ {ts ts' : List TermShape}, outline ts = outline ts' → ts = ts'
  | [], [], _ => rfl
  | t :: ts, t' :: ts', h => by
    obtain ⟨hline, hunder, hnext⟩ := Outline.entry.inj h
    rw [eq_of_lines hline hunder, outline_injective hnext]

end

end TermShape

namespace CodeShape

/-- The line of a statement. -/
def line : CodeShape → Line
  | expr _ => .plain .expr
  | assign x _ => .named .assign x
  | ifThen _ _ => .plain .ifThen
  | whileLoop _ _ => .plain .whileLoop
  | breakLoop => .plain .breakLoop
  | returnVoid => .plain .returned
  | returnValue _ => .plain .returned
  | funcDef f params _ => .definition f params

/-- The lines of an expression alone. -/
def value (t : TermShape) : Outline Line := .entry t.line t.under .nil

/-- The lines of a block, given those of its statements. -/
def block (statements : Outline Line) : Outline Line := .entry (.plain .block) statements .nil

/-- A condition and a block, each under a heading. -/
def guarded (heading : LineKind) (cond : TermShape) (statements : Outline Line) : Outline Line :=
  .entry (.plain .cond) (value cond) (.entry (.plain heading) (block statements) .nil)

mutual

/-- What stands under the line of a statement. -/
def under : CodeShape → Outline Line
  | expr t => value t
  | assign _ t => value t
  | ifThen t cs => guarded .thenBlock t (outline cs)
  | whileLoop t cs => guarded .body t (outline cs)
  | breakLoop => .nil
  | returnVoid => .nil
  | returnValue t => value t
  | funcDef _ _ cs => block (outline cs)

/-- The lines of the statements of a block. -/
def outline : List CodeShape → Outline Line
  | [] => .nil
  | c :: cs => .entry c.line c.under (outline cs)

end

theorem value_injective {t t' : TermShape} (h : value t = value t') : t = t' := by
  obtain ⟨hline, hunder, -⟩ := Outline.entry.inj h
  exact TermShape.eq_of_lines hline hunder

theorem block_injective {o o' : Outline Line} (h : block o = block o') : o = o' :=
  (Outline.entry.inj h).2.1

theorem guarded_injective {k : LineKind} {t t' : TermShape} {o o' : Outline Line}
    (h : guarded k t o = guarded k t' o') : t = t' ∧ o = o' := by
  obtain ⟨-, hcond, hrest⟩ := Outline.entry.inj h
  obtain ⟨-, hblock, -⟩ := Outline.entry.inj hrest
  exact ⟨value_injective hcond, block_injective hblock⟩

mutual

theorem eq_of_lines : ∀ {c c' : CodeShape}, c.line = c'.line → c.under = c'.under → c = c'
  | expr t, c', hline, hunder => by
    cases c' with
    | expr t' => rw [value_injective hunder]
    | _ => cases hline
  | assign x t, c', hline, hunder => by
    cases c' with
    | assign y t' => rw [(Line.named.inj hline).2, value_injective hunder]
    | _ => cases hline
  | ifThen t cs, c', hline, hunder => by
    cases c' with
    | ifThen t' cs' =>
      obtain ⟨rfl, hblock⟩ := guarded_injective hunder
      rw [outline_injective hblock]
    | _ => cases hline
  | whileLoop t cs, c', hline, hunder => by
    cases c' with
    | whileLoop t' cs' =>
      obtain ⟨rfl, hblock⟩ := guarded_injective hunder
      rw [outline_injective hblock]
    | _ => cases hline
  | breakLoop, c', hline, _ => by
    cases c' with
    | breakLoop => rfl
    | _ => cases hline
  | returnVoid, c', hline, hunder => by
    cases c' with
    | returnVoid => rfl
    | returnValue t' => cases hunder
    | _ => cases hline
  | returnValue t, c', hline, hunder => by
    cases c' with
    | returnValue t' => rw [value_injective hunder]
    | returnVoid => cases hunder
    | _ => cases hline
  | funcDef f params cs, c', hline, hunder => by
    cases c' with
    | funcDef g params' cs' =>
      obtain ⟨rfl, rfl⟩ := Line.definition.inj hline
      rw [outline_injective (block_injective hunder)]
    | _ => cases hline

/-- **An outline belongs to one list of statements only.** -/
theorem outline_injective : ∀ {cs cs' : List CodeShape}, outline cs = outline cs' → cs = cs'
  | [], [], _ => rfl
  | c :: cs, c' :: cs', h => by
    obtain ⟨hline, hunder, hnext⟩ := Outline.entry.inj h
    rw [eq_of_lines hline hunder, outline_injective hnext]

end

end CodeShape

/-- The lines of a block with these trees. -/
def Code.outline (p : Program R H) (cs : List (Code R)) : Outline Line :=
  CodeShape.block (CodeShape.outline (Code.shapes p cs))

/-! ### Names that a dump shows -/

/-- The name that an expression shows: of the variable it reads, or of what it calls. -/
def Expr.shown (p : Program R H) : Expr R → List String
  | .literal _ => []
  | .var x => [p.text x]
  | .invoke callee _ => [p.calleeName callee]
  | .neg _ => []

/-- The names that a statement shows: of the variable it sets, or of the function it defines and
the parameters of that. -/
def Stmt.shown (p : Program R H) : Stmt → List String
  | .assign x _ => [p.text x]
  | .funcDef f => p.funcName f :: (p.func f).params.map p.text
  | _ => []

namespace Program

variable {p : Program R H}

/-- All names that the program shows are plain. -/
structure HasPlainNames (p : Program R H) : Prop where
  exprs : ∀ k ∈ p.exprs, ∀ name ∈ k.shown p, PlainName name
  blocks : ∀ k ∈ p.blocks, ∀ s ∈ k.stmts, ∀ name ∈ s.shown p, PlainName name

theorem HasPlainNames.expr (hp : p.HasPlainNames) (e : ExprId) :
    ∀ name ∈ (p.expr e).shown p, PlainName name := by
  rw [Program.expr, Array.getD_eq_getD_getElem?]
  by_cases he : e.index < p.exprs.size
  · rw [Array.getElem?_eq_getElem he]
    exact hp.exprs _ (Array.getElem_mem he)
  · rw [Array.getElem?_eq_none (Nat.le_of_not_lt he)]
    intro name hname
    cases hname

theorem HasPlainNames.stmt (hp : p.HasPlainNames) {b : BlockId} {s : Stmt} (hs : s ∈ p.block b) :
    ∀ name ∈ s.shown p, PlainName name := by
  rw [Program.block, Array.getD_eq_getD_getElem?] at hs
  by_cases hb : b.index < p.blocks.size
  · rw [Array.getElem?_eq_getElem hb] at hs
    exact hp.blocks _ (Array.getElem_mem hb) s hs
  · rw [Array.getElem?_eq_none (Nat.le_of_not_lt hb)] at hs
    cases hs

end Program

namespace Printer

open Print

variable {width depth fuel : Nat} {x y : Print} {l : Line} {s : String} {o u : Outline Line}

/-! ### The text of an outline -/

/-- The step succeeds and adds the text of an outline with plain names. -/
def Shows (width depth : Nat) (x : Print) (o : Outline Line) : Prop :=
  Writes x (.ok ()) (typeset width (o.lines depth)) ∧ o.All Line.Plain

theorem Shows.done : Shows width depth (pure ()) .nil := ⟨.done, trivial⟩

/-- A line that nothing stands under. -/
theorem Shows.line (hl : l.Plain) (hs : l.text = s) :
    Shows width depth (line width depth s) (.entry l .nil .nil) := by
  refine ⟨?_, hl, trivial, trivial⟩
  simpa [typeset, Outline.lines, hs] using line_writes width depth s

/-- A line and what stands under it. -/
theorem Shows.under (hl : l.Plain) (hs : l.text = s) (hx : Shows width (depth + 1) x o) :
    Shows width depth (Printer.line width depth s >>= fun _ => x) (.entry l o .nil) := by
  have hline : Shows width depth (Printer.line width depth s) (.entry l .nil .nil) := .line hl hs
  obtain ⟨hx, ho⟩ := hx
  refine ⟨?_, hl, ho, trivial⟩
  simpa [typeset, Outline.lines] using hline.1.bind hx

theorem Shows.plain (k : LineKind) :
    Shows width depth (Printer.line width depth k.lead) (.entry (.plain k) .nil .nil) :=
  .line nofun (Line.text_plain k)

theorem Shows.underPlain (k : LineKind) (hx : Shows width (depth + 1) x o) :
    Shows width depth (Printer.line width depth k.lead >>= fun _ => x) (.entry (.plain k) o .nil) :=
  .under nofun (Line.text_plain k) hx

theorem plain_named {k : LineKind} (hs : PlainName s) : (Line.named k s).Plain :=
  List.forall_mem_singleton.2 hs

/-- An entry and what follows it. -/
theorem Shows.next (hx : Shows width depth x (.entry l u .nil)) (hy : Shows width depth y o) :
    Shows width depth (x >>= fun _ => y) (.entry l u o) := by
  obtain ⟨hx, hl, hu, -⟩ := hx
  obtain ⟨hy, ho⟩ := hy
  refine ⟨?_, hl, hu, ho⟩
  simpa [typeset, Outline.lines, typeset_append, String.append_assoc] using hx.bind hy

/-- Steps in a row show the entries of their trees in a row. -/
theorem exists_forM_shows {Q : τ → α → Prop} {line : τ → Line} {under : τ → Outline Line}
    (outline : List τ → Outline Line) (hnil : outline [] = .nil)
    (hcons : ∀ t ts, outline (t :: ts) = .entry (line t) (under t) (outline ts)) {as : List α}
    {step : α → Print}
    (h : ∀ a ∈ as, ∃ t, Q t a ∧ Shows width depth (step a) (.entry (line t) (under t) .nil)) :
    ∃ ts, List.Forall₂ Q ts as ∧ Shows width depth (as.forM step) (outline ts) := by
  induction as with
  | nil => exact ⟨[], .nil, hnil ▸ Shows.done⟩
  | cons a as ih =>
    obtain ⟨⟨t, ht, ha⟩, h⟩ := List.forall_mem_cons.1 h
    obtain ⟨ts, hts, has⟩ := ih h
    exact ⟨t :: ts, .cons ht hts, hcons t ts ▸ ha.next has⟩

/-! ### What is printed -/

/-- **An expression that is printed has a tree, and what is added is the text of its shape.** -/
theorem printExpr_shows {p : Program R H} (hp : p.HasPlainNames) {e : ExprId}
    (h : Succeeds (printExpr p width fuel depth e)) :
    ∃ t : Term R, t.At p e ∧
      Shows width depth (printExpr p width fuel depth e) (CodeShape.value (t.shape p)) := by
  induction fuel generalizing depth e with
  | zero =>
    obtain ⟨t, h⟩ := h
    cases (Writes.throw _).unique h
  | succ fuel ih =>
    rw [printExpr] at h ⊢
    split at h
    · next v he => exact ⟨.literal v, .literal he, .plain .literal⟩
    · next x he =>
      have hname : PlainName (p.text x) := hp.expr e _ (he ▸ List.mem_singleton_self _)
      exact ⟨.var x, .var he, .line (plain_named hname) rfl⟩
    · next operand he =>
      rw [line_bind_succeeds_iff (printExpr_definite ..)] at h
      obtain ⟨t, ht, hshows⟩ := ih h
      exact ⟨.neg t, .neg he ht, .underPlain .neg hshows⟩
    · next callee args he =>
      have hargs := fun a (_ : a ∈ args) => printExpr_definite p width fuel (depth + 1) a
      rw [line_bind_succeeds_iff (.forM hargs), succeeds_forM_iff hargs] at h
      obtain ⟨ts, hts, hshows⟩ := exists_forM_shows
        (fun ts => TermShape.outline (Term.shapes p ts)) rfl (fun _ _ => rfl)
        fun a ha => ih (h a ha)
      have hname : PlainName (p.calleeName callee) := hp.expr e _ (he ▸ List.mem_singleton_self _)
      exact ⟨.invoke callee ts, .invoke he hts, .under (plain_named hname) rfl hshows⟩

section

variable {p : Program R H} {expr : Nat → ExprId → Print} {block : Nat → BlockId → Print}

/-- A condition and its block are shown under their headings. -/
theorem printGuarded_shows (k heading : LineKind) {cond : ExprId} {b : BlockId} {t : TermShape}
    {o : Outline Line} (hcond : Shows width (depth + 2) (expr (depth + 2) cond) (CodeShape.value t))
    (hblock : Shows width (depth + 2) (block (depth + 2) b) (CodeShape.block o)) :
    Shows width depth (printGuarded width depth expr block k.lead heading.lead cond b)
      (.entry (.plain k) (CodeShape.guarded heading t o) .nil) := by
  have hshows := ((hcond.underPlain .cond).next (hblock.underPlain heading)).underPlain k
  rw [bind_assoc] at hshows
  exact hshows

/-- **A statement that is printed has a tree, and what is added is the text of its shape.** -/
theorem printStmt_shows (hp : p.HasPlainNames) {b : BlockId} {s : Stmt} (hs : s ∈ p.block b)
    (hexpr : ∀ d e, Definite (expr d e)) (hblock : ∀ d b, Definite (block d b))
    (hterm : ∀ {d e}, Succeeds (expr d e) →
      ∃ t : Term R, t.At p e ∧ Shows width d (expr d e) (CodeShape.value (t.shape p)))
    (hcode : ∀ {d b}, Succeeds (block d b) → ∃ cs : List (Code R), Code.AtBlock p cs b ∧
      Shows width d (block d b) (Code.outline p cs))
    (h : Succeeds (printStmt p width depth expr block s)) :
    ∃ c : Code R, c.At p s ∧ Shows width depth (printStmt p width depth expr block s)
      (.entry (c.shape p).line (c.shape p).under .nil) := by
  have hguarded {k heading : String} {cond : ExprId} {b : BlockId}
      (h : Succeeds (printGuarded width depth expr block k heading cond b)) :
      Succeeds (expr (depth + 2) cond) ∧ Succeeds (block (depth + 2) b) := by
    have hthen : Definite (line width (depth + 1) heading >>= fun _ => block (depth + 2) b) :=
      (line_succeeds ..).definite.bind (hblock _ _)
    rw [printGuarded, line_bind_succeeds_iff
      ((line_succeeds ..).definite.bind ((hexpr _ _).bind hthen)),
      line_bind_succeeds_iff ((hexpr _ _).bind hthen), succeeds_bind_iff (hexpr _ _) hthen,
      line_bind_succeeds_iff (hblock _ _)] at h
    exact h
  cases s with
  | expr e =>
    obtain ⟨t, ht, hshows⟩ := hterm ((line_bind_succeeds_iff (hexpr _ _) _).1 h)
    exact ⟨.expr t, .expr ht, hshows.underPlain .expr⟩
  | assign x e =>
    obtain ⟨t, ht, hshows⟩ := hterm ((line_bind_succeeds_iff (hexpr _ _) _).1 h)
    have hname : PlainName (p.text x) := hp.stmt hs _ (List.mem_singleton_self _)
    exact ⟨.assign x t, .assign ht, hshows.under (plain_named hname) rfl⟩
  | ifThen cond b =>
    obtain ⟨hcond, hthen⟩ := hguarded h
    obtain ⟨t, ht, hcond⟩ := hterm hcond
    obtain ⟨cs, hcs, hthen⟩ := hcode hthen
    exact ⟨.ifThen t cs, .ifThen ht hcs, printGuarded_shows .ifThen .thenBlock hcond hthen⟩
  | whileLoop cond b =>
    obtain ⟨hcond, hbody⟩ := hguarded h
    obtain ⟨t, ht, hcond⟩ := hterm hcond
    obtain ⟨cs, hcs, hbody⟩ := hcode hbody
    exact ⟨.whileLoop t cs, .whileLoop ht hcs, printGuarded_shows .whileLoop .body hcond hbody⟩
  | breakLoop => exact ⟨.breakLoop, .breakLoop, .plain .breakLoop⟩
  | returnValue e =>
    cases e with
    | none => exact ⟨.returnVoid, .returnVoid, .plain .returned⟩
    | some e =>
      obtain ⟨t, ht, hshows⟩ := hterm ((line_bind_succeeds_iff (hexpr _ _) _).1 h)
      exact ⟨.returnValue t, .returnValue ht, hshows.underPlain .returned⟩
  | funcDef f =>
    obtain ⟨cs, hcs, hshows⟩ := hcode ((line_bind_succeeds_iff (hblock _ _) _).1 h)
    have hplain : (Line.definition (p.funcName f) ((p.func f).params.map p.text)).Plain :=
      hp.stmt hs
    refine ⟨.funcDef f (p.func f).params cs, .funcDef hcs, hshows.under hplain ?_⟩
    change "FuncDef " ++ (_ ++ "(" ++ _ ++ ")") = funcHeader p f
    simp only [funcHeader, String.append_assoc]

end

/-- **A block that is printed unfolds into a tree, and what is added is the text of its shape.** -/
theorem printBlock_shows {p : Program R H} (hp : p.HasPlainNames) {path : List BlockId}
    {b : BlockId} (h : Succeeds (printBlock p width fuel path depth b)) :
    ∃ cs : List (Code R), Code.AtBlock p cs b ∧
      Shows width depth (printBlock p width fuel path depth b) (Code.outline p cs) := by
  induction fuel generalizing path depth b with
  | zero =>
    obtain ⟨t, h⟩ := h
    cases (Writes.throw _).unique h
  | succ fuel ih =>
    have hexpr := printExpr_definite p width (p.exprs.size + 1)
    have hblock := printBlock_definite p width fuel (b :: path)
    have hstmts := fun s (_ : s ∈ p.block b) =>
      printStmt_definite p width (depth + 1) hexpr hblock s
    rw [printBlock] at h ⊢
    split at h
    · obtain ⟨t, h⟩ := h
      cases (Writes.throw _).unique h
    · next hpath =>
      rw [line_bind_succeeds_iff (.forM hstmts), succeeds_forM_iff hstmts] at h
      obtain ⟨cs, hcs, hshows⟩ := exists_forM_shows
        (fun cs => CodeShape.outline (Code.shapes p cs)) rfl (fun _ _ => rfl)
        fun s hs => printStmt_shows hp hs hexpr hblock (printExpr_shows hp) ih (h s hs)
      rw [if_neg hpath]
      exact ⟨cs, hcs, hshows.underPlain .block⟩

/-! ### One dump, one structure -/

/-- A new printer that has printed a block holds the text of its shape. -/
theorem exists_shape_of_visit {p : Program R H} (hp : p.HasPlainNames) {b : BlockId}
    {pr : Printer} (h : (new width).visit p b = (.ok (), pr)) :
    ∃ cs : List (Code R), Code.AtBlock p cs b ∧ (Code.outline p cs).All Line.Plain ∧
      pr.out.text = typeset width ((Code.outline p cs).lines 0) := by
  obtain ⟨cs, hcs, hwrites, hplain⟩ :=
    printBlock_shows hp ((visit_ok_iff (new width)).1 (congrArg Prod.fst h))
  refine ⟨cs, hcs, hplain, ?_⟩
  have hpr := congrArg (fun r => r.2.out.text) h
  rw [visit_of_writes hwrites] at hpr
  simpa [new, idle, Emitter.empty, Emitter.emit] using hpr.symm

end Printer

/-- **The dump determines the structure.** If two blocks are printed with the same indentation, and
the texts are the same, then each of them unfolds into one tree and the trees have one shape: the
same statements in the same order, nested alike, with the same names of variables, parameters and
callees, and the same expressions but for the values of literals. -/
theorem same_dump_same_shape {p : Program R H} {q : Program R' H'} (hp : p.HasPlainNames)
    (hq : q.HasPlainNames) {width : Nat} (hwidth : 1 ≤ width) {b c : BlockId} {pr qr : Printer}
    (hb : (Printer.new width).visit p b = (.ok (), pr))
    (hc : (Printer.new width).visit q c = (.ok (), qr)) (htext : pr.out.text = qr.out.text) :
    (∃! cs, Code.AtBlock p cs b) ∧ (∃! ds, Code.AtBlock q ds c) ∧
      ∀ cs ds, Code.AtBlock p cs b → Code.AtBlock q ds c → Code.shapes p cs = Code.shapes q ds := by
  obtain ⟨cs, hcs, hplain, hpr⟩ := Printer.exists_shape_of_visit hp hb
  obtain ⟨ds, hds, hplain', hqr⟩ := Printer.exists_shape_of_visit hq hc
  have hlines := typeset_injective hwidth (fun l hl => hplain.of_mem_lines hl)
    (fun l hl => hplain'.of_mem_lines hl) (hpr ▸ hqr ▸ htext)
  have hshapes : Code.shapes p cs = Code.shapes q ds :=
    CodeShape.outline_injective (CodeShape.block_injective (Outline.lines_injective hlines))
  refine ⟨⟨cs, hcs, fun cs' h => Code.at_list_unique h hcs⟩,
    ⟨ds, hds, fun ds' h => Code.at_list_unique h hds⟩, fun cs' ds' hcs' hds' => ?_⟩
  rw [Code.at_list_unique hcs' hcs, Code.at_list_unique hds' hds, hshapes]

/-- A root that defines a function of one parameter, which returns the value of a call. -/
def definesCaller (v : Value Float)
    (callee : Build Float Nat (List ExprId → Build Float Nat ExprId)) :
    BlockId × Program Float Nat :=
  let build : Build Float Nat BlockId := do
    let call ← callee
    let x ← Build.var "x"
    let g ← Build.func "g" [x]
    Build.pushBody g (.returnValue (some (← call [x.expr, ← Build.literal v])))
    let root ← Build.block
    Build.push root (← Build.sealFunc g)
    return root
  build.run Program.empty

/-- What is called is a native. -/
def callsNative : BlockId × Program Float Nat :=
  definesCaller (.int 1) do
    return Build.call (← Build.native (.pure "f" .variadic fun _ => .failed ""))

/-- What is called is a function, and another literal is given to it. -/
def callsFunction : BlockId × Program Float Nat :=
  definesCaller (.bool true) do return Build.apply (← Build.func "f" [])

/-- One dump of two programs that differ in a literal, in what stands behind a name, and in all
their numbers. -/
theorem same_dump_same_shape_callsNative :
    callsNative.2.HasPlainNames ∧ callsFunction.2.HasPlainNames ∧ callsNative.1 ≠ callsFunction.1 ∧
      ∃ pr qr : Printer,
        (Printer.new 3).visit callsNative.2 callsNative.1 = (.ok (), pr) ∧
        (Printer.new 3).visit callsFunction.2 callsFunction.1 = (.ok (), qr) ∧
        pr.out.text = qr.out.text ∧
        ∀ cs ds, Code.AtBlock callsNative.2 cs callsNative.1 →
          Code.AtBlock callsFunction.2 ds callsFunction.1 →
          Code.shapes callsNative.2 cs = Code.shapes callsFunction.2 ds := by
  have hp : callsNative.2.HasPlainNames := ⟨by decide +kernel, by decide +kernel⟩
  have hq : callsFunction.2.HasPlainNames := ⟨by decide +kernel, by decide +kernel⟩
  have htext : ((Printer.new 3).visit callsNative.2 callsNative.1).2.out.text =
      ((Printer.new 3).visit callsFunction.2 callsFunction.1).2.out.text := by decide +kernel
  have hb : (Printer.new 3).visit callsNative.2 callsNative.1 = (.ok (), _) := rfl
  have hc : (Printer.new 3).visit callsFunction.2 callsFunction.1 = (.ok (), _) := rfl
  obtain ⟨-, -, hshapes⟩ := same_dump_same_shape hp hq (by decide : 1 ≤ 3) hb hc htext
  exact ⟨hp, hq, by decide, _, _, hb, hc, htext, hshapes⟩

end StagedGraph
