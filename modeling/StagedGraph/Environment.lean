import StagedGraph.Scope

/-!
# Environments

The scopes that are open while a program runs form a stack with the global scope at the
bottom. Each open scope has the one below it as its parent, so that a name is looked up
through all of them, while an assignment stays inside the current frame: it overwrites the
binding that the frame has, or else adds one to the innermost scope.
-/

namespace StagedGraph

/-- The open scopes of a run, the innermost first, in a forest that holds no others. -/
structure Environment (R : Type) where
  forest : Forest R
  stack : List ScopeId
  global : ScopeId
  /-- Each scope has the one opened before it as its parent. -/
  chain : Forest.Chain forest.scopes
  stack_eq : stack = forest.scopes.map Scope.id
  /-- The global scope is at the bottom. -/
  bottom : stack.getLast? = some global
deriving Repr, DecidableEq

namespace Environment

variable {R : Type}

/-- The environment with an empty global scope. -/
def empty : Environment R where
  forest := ⟨[⟨⟨0⟩, NameMap.empty, none, .global⟩]⟩
  stack := [⟨0⟩]
  global := ⟨0⟩
  chain := .global NameMap.empty
  stack_eq := rfl
  bottom := rfl

/-- The number of open scopes. -/
def depth (env : Environment R) : Nat := env.stack.length

/-- The innermost open scope. -/
def current (env : Environment R) : ScopeId := env.stack.headD env.global

/-- The same scopes, binding other names. -/
def rebind (env : Environment R) (t : Forest R)
    (h : t.scopes.map Scope.place = env.forest.scopes.map Scope.place) : Environment R where
  forest := t
  stack := env.stack
  global := env.global
  chain := env.chain.congr h
  stack_eq := by
    have hid := congrArg (List.map Prod.fst) h
    simp only [List.map_map] at hid
    exact env.stack_eq.trans hid.symm
  bottom := env.bottom

/-- Opens a scope inside the current one. -/
def push (env : Environment R) (kind : ScopeKind) : Environment R where
  forest := (env.forest.child env.current kind).2
  stack := (env.forest.child env.current kind).1 :: env.stack
  global := env.global
  chain := by
    obtain ⟨⟨ss⟩, stack, g, hc, rfl, hb⟩ := env
    cases hc with
    | global m => exact .inner _ _ (.global m)
    | inner m k hc => exact .inner _ _ (.inner m k hc)
  stack_eq := congrArg (_ :: ·) env.stack_eq
  bottom := by
    have hne : env.stack ≠ [] := fun e => by simpa [e] using env.bottom
    rw [List.getLast?_cons_of_ne_nil hne, env.bottom]

/-- Closes the current scope; the last scope stays open. -/
def pop (env : Environment R) : Environment R :=
  match env with
  | ⟨t, i :: j :: rest, g, chain, stack_eq, bottom⟩ => {
      forest := t.release i
      stack := j :: rest
      global := g
      chain := by
        obtain ⟨ss⟩ := t
        cases chain with
        | global m => cases stack_eq
        | inner m k hc =>
          have hi : i = _ := (List.cons.inj stack_eq).1
          simpa [Forest.release, hi] using hc
      stack_eq := by
        obtain ⟨ss⟩ := t
        cases chain with
        | global m => cases stack_eq
        | inner m k hc =>
          have hi : i = _ := (List.cons.inj stack_eq).1
          simpa [Forest.release, hi] using (List.cons.inj stack_eq).2
      bottom := bottom }
  | env => env

/-- Binds a name in the current scope. -/
def define (env : Environment R) (x : Name) (v : Value R) : Environment R :=
  env.rebind (env.forest.define env.current x v) (env.forest.map_place_define env.current x v)

/-- The nearest binding of a name in the open scopes. -/
def lookup (env : Environment R) (x : Name) : Option (Value R) := env.forest.lookup env.current x

/-- Overwrites the binding that the current frame has for a name, or else binds the name in
the current scope. -/
def assign (env : Environment R) (x : Name) (v : Value R) : Environment R :=
  match h : env.forest.update? env.current x v with
  | some t => env.rebind t (Forest.map_place_update? h)
  | none => env.define x v

/-- Binds names to values in order, as many as there are of both. -/
def bind (env : Environment R) (params : List Name) (args : List (Value R)) : Environment R :=
  (params.zip args).foldl (fun e b => e.define b.1 b.2) env

/-- What the global scope binds. -/
def globals (env : Environment R) : List (Name × Value R) := env.forest.bindings env.global

end Environment

/-- The pairs of a list, sorted by key, each key with the last value that it has there. -/
def sortByKey {α : Type} : List (String × α) → List (String × α) :=
  List.foldl (fun sorted e => insertSorted e.1 e.2 sorted) []
where
  /-- Puts a pair in front of the first larger key, in place of an equal one. -/
  insertSorted (k : String) (v : α) : List (String × α) → List (String × α)
    | [] => [(k, v)]
    | (j, w) :: rest =>
      if k = j then (k, v) :: rest
      else if k < j then (k, v) :: (j, w) :: rest
      else (j, w) :: insertSorted k v rest

/-- Bindings under the strings of their names, in the order of the strings by code point. -/
def Interner.named {α : Type} (t : Interner) (bindings : List (Name × α)) : List (String × α) :=
  sortByKey (bindings.map fun b => (t.lookup b.1, b.2))

end StagedGraph
