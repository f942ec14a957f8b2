import ScopeLint.Scope.Outline
import ScopeLint.Scope.Tree

/-!
# Building the scope tree

The outline of a program is walked once.  A definition goes at once to the scope
that owns its name.  A reference waits at the innermost open scope; when a scope
closes, the references waiting there that it declares go to its bindings, and
all others pass through it to the scope around it.  So a use may come before its
declaration, and each reference ends in one place: a binding, or the references
that passed through the global scope.
-/

namespace ScopeLint

open Syntax (Label Identifier)

/-- A scope that is still open. -/
structure OpenScope where
  /-- The scope. -/
  id : ScopeId
  /-- The references waiting for it to close, in the order met. -/
  waiting : List Reference
  deriving DecidableEq, Repr, Inhabited

/-- The state of a walk. -/
structure Walk where
  /-- The scopes so far. -/
  tree : ScopeTree
  /-- The open scopes, innermost first. -/
  stack : List OpenScope
  deriving DecidableEq, Repr, Inhabited

namespace Walk

/-- The walk that has met nothing but the global scope. -/
def start (span : Span) : Walk := ⟨.ofSpan span, [⟨ScopeTree.rootId, []⟩]⟩

/-- The innermost open scope. -/
def current (w : Walk) : ScopeId := (w.stack.head?.map (·.id)).getD ScopeTree.rootId

/-- Opens a scope inside the current one. -/
def enter (w : Walk) (kind : ScopeKind) (span : Span) : Walk :=
  ⟨w.tree.add w.current kind span, ⟨w.tree.size, []⟩ :: w.stack⟩

/-- Lets a reference wait at the innermost open scope. -/
def wait (w : Walk) (r : Reference) : Walk :=
  match w.stack with
  | [] => w
  | top :: rest => { w with stack := { top with waiting := top.waiting ++ [r] } :: rest }

/-- Gives a reference that waited at the closed scope `id` to its binding, or
passes it on. -/
def settle (id : ScopeId) (w : Walk) (r : Reference) : Walk :=
  match w.tree.resolve? id r with
  | some tree => { w with tree }
  | none => wait { w with tree := w.tree.pass id r } r

/-- Closes the innermost open scope. -/
def leave (w : Walk) : Walk :=
  match w.stack with
  | [] => w
  | top :: rest => top.waiting.foldl (settle top.id) { w with stack := rest }

/-- Records a definition in the scope that owns its name. -/
def define (source : Source) (w : Walk) (name : Label) (kind : DefinitionKind) : Walk :=
  let owner := if kind.hoists then (w.tree.variableScope? w.current).getD w.current else w.current
  { w with tree := w.tree.define owner ⟨.ofLabel source name, kind⟩ }

/-- Records a reference from the current scope. -/
def refer (source : Source) (w : Walk) (name : Label) (access : Access) (init : Bool) : Walk :=
  w.wait ⟨.ofLabel source name, access, init, w.current, none⟩

mutual

/-- Walks one entry. -/
def entry (source : Source) (w : Walk) : Entry → Walk
  | .definition name kind => w.define source name kind
  | .reference name access init => w.refer source name access init
  | .scope kind span entries => (Walk.entries source (w.enter kind span) entries).leave

/-- Walks entries in order. -/
def entries (source : Source) (w : Walk) : List Entry → Walk
  | [] => w
  | e :: rest => Walk.entries source (Walk.entry source w e) rest

end

/-- Closes the open scopes, innermost first. -/
def leaveAll (w : Walk) : Nat → Walk
  | 0 => w
  | n + 1 => w.leave.leaveAll n

/-- The scope tree of a finished walk. -/
def finish (w : Walk) : ScopeTree := (w.leaveAll w.stack.length).tree

end Walk

end ScopeLint
