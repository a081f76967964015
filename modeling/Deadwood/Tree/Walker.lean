import Deadwood.Tree.Walk

/-!
One walk for several callbacks. A callback is registered for a role and called on every node of that
role; all of them share one state.
-/
namespace Deadwood

structure Walker (σ : Type) where
  callbacks : List (Node.Role × (σ → Visit → σ)) := []

namespace Walker

variable {σ : Type}

def on (w : Walker σ) (role : Node.Role) (callback : σ → Visit → σ) : Walker σ :=
  ⟨w.callbacks ++ [(role, callback)]⟩

def callbacksOf (w : Walker σ) (role : Node.Role) : List (σ → Visit → σ) :=
  w.callbacks.filterMap fun (r, callback) => if r == role then some callback else none

def dispatch (w : Walker σ) (state : σ) (v : Visit) : σ :=
  match v.node.role? with
  | none => state
  | some role => (w.callbacksOf role).foldl (fun state callback => callback state v) state

def walk (w : Walker σ) (root : Node) (state : σ) : σ :=
  root.walk.foldl w.dispatch state

end Walker

end Deadwood
