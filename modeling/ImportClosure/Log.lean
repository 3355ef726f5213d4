import ImportClosure.Text.Basic

/-!
# `ImportClosure.Log`: log entries and computations that write them

A `Traced` value is a result with the log entries that were written on the way to it, oldest
first. Results do not depend on entries, and `bind` puts the entries of its two parts one
after the other.
-/

set_option autoImplicit false

namespace ImportClosure

/-- How much an entry matters. -/
inductive Level where
  | debug
  | info
  | warning
  | error
  | critical
  deriving DecidableEq, Repr

namespace Level

/-- The weight of a level: an entry is shown if it weighs at least the threshold. -/
def weight : Level → Nat
  | debug => 10
  | info => 20
  | warning => 30
  | error => 40
  | critical => 50

/-- The name of a level. -/
def name : Level → Text
  | debug => "DEBUG".toList
  | info => "INFO".toList
  | warning => "WARNING".toList
  | error => "ERROR".toList
  | critical => "CRITICAL".toList

end Level

/-- The parts of the resolver that report errors or write log entries. -/
inductive Component where
  | commandLine
  | paths
  | documentImports
  | locator
  | moduleGraph
  | walker
  deriving DecidableEq, Repr

namespace Component

/-- The name of a component. -/
def name : Component → Text
  | commandLine => "cli".toList
  | paths => "paths".toList
  | documentImports => "document_imports".toList
  | locator => "locator".toList
  | moduleGraph => "module_graph".toList
  | walker => "walker".toList

/-- The name that a component's log entries carry. -/
def logger (c : Component) : Text := "import-resolver.".toList ++ c.name

/-- An error text with the component that reports it in front. -/
def report (c : Component) (text : Text) : Text :=
  '[' :: c.name ++ "] ".toList ++ text

end Component

/-- One log entry. -/
structure LogEntry where
  logger : Text
  level : Level
  message : Text
  deriving DecidableEq, Repr

/-- A value and the log entries written on the way to it. -/
structure Traced (α : Type) where
  value : α
  log : List LogEntry

namespace Traced

variable {α β : Type}

/-- A value with no entries. -/
protected def pure (a : α) : Traced α := ⟨a, []⟩

/-- The second computation, started from the value of the first. -/
protected def bind (x : Traced α) (f : α → Traced β) : Traced β :=
  ⟨(f x.value).value, x.log ++ (f x.value).log⟩

instance : Monad Traced where
  pure := Traced.pure
  bind := Traced.bind

/-- Writes one entry. -/
def write (entry : LogEntry) : Traced Unit := ⟨(), [entry]⟩

/-- Writes one entry of a component. -/
def note (c : Component) (level : Level) (message : Text) : Traced Unit :=
  write ⟨c.logger, level, message⟩

@[simp] theorem value_pure (a : α) : (pure a : Traced α).value = a := rfl

@[simp] theorem log_pure (a : α) : (pure a : Traced α).log = [] := rfl

@[simp] theorem value_bind (x : Traced α) (f : α → Traced β) :
    (x >>= f).value = (f x.value).value := rfl

@[simp] theorem log_bind (x : Traced α) (f : α → Traced β) :
    (x >>= f).log = x.log ++ (f x.value).log := rfl

@[simp] theorem value_write (entry : LogEntry) : (write entry).value = () := rfl

@[simp] theorem log_write (entry : LogEntry) : (write entry).log = [entry] := rfl

@[simp] theorem value_note (c : Component) (level : Level) (message : Text) :
    (note c level message).value = () := rfl

@[simp] theorem log_note (c : Component) (level : Level) (message : Text) :
    (note c level message).log = [⟨c.logger, level, message⟩] := rfl

end Traced

end ImportClosure
