import Rowmap.Value.Basic

/-!
# Chains of errors

Errors from the database layer wrap one another: an error may hold the one it was made from, and may
name the one that caused it. The links can run in a circle. The state of an error is the first one
found on the way through the wrapped errors and, where there is none, the causes; no error is
visited twice, so the way ends.
-/

namespace Rowmap

/-- An error as one node of a chain: the two places for its state, and its links. -/
structure ErrorNode where
  sqlstate : Value
  pgcode : Value
  wrapped : Option Nat
  cause : Option Nat

namespace ErrorNode

/-- The state that an error tells: its first state unless that counts as false, if it is a text. -/
def state? (e : ErrorNode) : Option String :=
  (if e.sqlstate.truthy then e.sqlstate else e.pgcode).asText?

/-- Where the way goes on. -/
def next? (e : ErrorNode) : Option Nat := e.wrapped <|> e.cause

end ErrorNode

abbrev ErrorGraph := List ErrorNode

namespace ErrorGraph

/-- The first state on the way from an error through the errors not yet visited. -/
def stateFrom (g : ErrorGraph) (unvisited : List Nat) (i : Nat) : Option String :=
  if _ : i ∈ unvisited then
    match g[i]? with
    | none => none
    | some e =>
      match e.state? with
      | some s => some s
      | none =>
        match e.next? with
        | some j => stateFrom g (unvisited.erase i) j
        | none => none
  else none
termination_by unvisited.length
decreasing_by
  rw [List.length_erase_of_mem ‹i ∈ unvisited›]
  exact Nat.sub_lt (List.length_pos_of_mem ‹i ∈ unvisited›) Nat.one_pos

def state? (g : ErrorGraph) (i : Nat) : Option String := stateFrom g (List.range g.length) i

end ErrorGraph

/-- The state of a statement that ran out of time. -/
def timeoutState : String := "57014"

/-- Whether an error tells that a statement ran out of time. -/
def ErrorGraph.isTimeout (g : ErrorGraph) (i : Nat) : Bool := g.state? i == some timeoutState

end Rowmap
