import BoundQuery.Text.Quoted
import BoundQuery.Value.Basic

/-!
# Events

What is logged. An event has a level and a channel, and its message is made when it is read. A
value that a message shows is in the event by its literal form, as it was at the time.

## Main definitions

* `Event`: the events.
* `Event.level`, `Event.channel`, `Event.message`: what a log shows of an event.
-/

namespace BoundQuery

inductive Level where
  | debug
  | warning
deriving DecidableEq, Repr

/-- The part of the library that an event comes from. -/
inductive Channel where
  | predicates
  | registry
  | statements
deriving DecidableEq, Repr

/-- What is logged. -/
inductive Event where
  | emptyIn (expr : String)
  | building (operation shown : String) (operands : Nat)
  | attached (sql : String) (operands : Nat)
  | cloned (variant : Variant) (bound : Nat)
deriving DecidableEq, Repr

namespace Event

def level : Event → Level
  | emptyIn _ => .warning
  | building .. | attached .. | cloned .. => .debug

def channel : Event → Channel
  | emptyIn _ => .predicates
  | building .. => .registry
  | attached .. | cloned .. => .statements

def message : Event → String
  | emptyIn expr => "IN predicate on " ++ quoteText expr ++ " has no values; rendering 'in ()'"
  | building operation shown operands =>
    s!"Building {operation} predicate on {shown} with {operands} value(s)"
  | attached sql operands => "Attached " ++ quoteText sql ++ s!" ({operands} parameter(s))"
  | cloned variant bound => "Cloned " ++ variant.display ++ s!" with {bound} parameter(s)"

end Event

end BoundQuery
