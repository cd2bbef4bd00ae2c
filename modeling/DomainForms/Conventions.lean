import DomainForms.Name
import DomainForms.Span

/-!
# Conventions

Conventions say which base types every command and every domain event inherits.  There is one group
for each of the two; a group that is left out keeps what held before, while an empty group inherits
nothing.

* `Conventions.override`: one set of conventions laid over another, group by group.
-/

namespace DomainForms

/-- The base types of commands and of domain events. -/
structure Conventions where
  /-- Base types of domain events, in order; absent if the group is left out. -/
  domainEvents : Option (List QualifiedName)
  /-- Base types of commands, in order; absent if the group is left out. -/
  commands : Option (List QualifiedName)
  /-- Where the conventions are declared. -/
  span : Span
deriving DecidableEq, Repr

namespace Conventions

/-- The conventions without any group. -/
def empty : Conventions := ⟨none, none, .none⟩

/-- Conventions with another declaration laid over them.  A group that the declaration gives
replaces the whole group below it. -/
def override (base : Conventions) : Option Conventions → Conventions
  | none => base
  | some later =>
    { domainEvents := later.domainEvents.or base.domainEvents
      commands := later.commands.or base.commands
      span := later.span }

/-- The base types that every domain event inherits. -/
def domainEventBases (c : Conventions) : List QualifiedName := c.domainEvents.getD []

/-- The base types that every command inherits. -/
def commandBases (c : Conventions) : List QualifiedName := c.commands.getD []

end Conventions

end DomainForms
