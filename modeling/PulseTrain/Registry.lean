import PulseTrain.Fault

/-!
# The registry of motors

Motors take the slots of a machine in the order in which they are registered, with or without a
name. Nothing is ever removed, so a slot keeps its motor. Motors and names are in two tables, one
entry a slot, that are both bounded by the number of slots. `Registry.call` is one registration with
the slot that is answered, and `Registry.run` is any number of them.
-/

namespace PulseTrain

/-- Adds an entry at the end of a table, if the bound of its length leaves room for it. -/
def pushWithin? {β : Type} (capacity : Nat) (table : Array β) (entry : β) : Option (Array β) :=
  if table.size < capacity then some (table.push entry) else none

/-- A motor that is to take a slot, under a name or without one. -/
structure Registration (α : Type) where
  name : Option String := none
  motor : α
deriving DecidableEq, Repr

/-- The motors of a machine with `capacity` slots, in slot order. -/
structure Registry (α : Type) (capacity : Nat) where
  motorTable : Array α := #[]
  /-- The name of the motor in each slot, if it has one. -/
  nameTable : Array (Option String) := #[]
deriving Repr

namespace Registry

variable {α : Type} {capacity : Nat}

def empty : Registry α capacity := {}

def size (r : Registry α capacity) : Nat := r.motorTable.size

def isEmpty (r : Registry α capacity) : Bool := r.motorTable.isEmpty

def motors (r : Registry α capacity) : List α := r.motorTable.toList

def motor? (r : Registry α capacity) (slot : Nat) : Option α := r.motorTable[slot]?

/-- The name of the motor in a slot, if there is a motor and it has one. -/
def name? (r : Registry α capacity) (slot : Nat) : Option String := r.nameTable[slot]?.join

/-- The first slot whose motor has the name. -/
def position? (r : Registry α capacity) (name : String) : Option Nat :=
  r.nameTable.findIdx? (· == some name)

/-- The slot of a named motor. A name too long to be registered is left out of the fault. -/
def slotOf (r : Registry α capacity) (name : String) : Except RegistryFault Nat :=
  match r.position? name with
  | some slot => .ok slot
  | none => .error (.unknownName (boundedText maxNameBytes name))

/-- Takes the next slot, if one is left. -/
def append (r : Registry α capacity) (name : Option String) (motor : α) :
    Except RegistryFault (Registry α capacity) :=
  match pushWithin? capacity r.motorTable motor with
  | none => .error (.full capacity)
  | some motorTable =>
    -- a name that does not fit is not reported: the table of the motors has the same bound
    .ok { motorTable, nameTable := (pushWithin? capacity r.nameTable name).getD r.nameTable }

def register (r : Registry α capacity) (motor : α) : Except RegistryFault (Registry α capacity) :=
  r.append none motor

/-- Registers a motor under a name that no motor has yet. The length of the name is looked at first,
then whether it is taken, then whether a slot is left. -/
def registerNamed (r : Registry α capacity) (name : String) (motor : α) :
    Except RegistryFault (Registry α capacity) :=
  if maxNameBytes < name.utf8ByteSize then .error .nameTooLong
  else if (r.position? name).isSome then .error (.duplicateName name)
  else r.append (some name) motor

def enroll (r : Registry α capacity) (e : Registration α) :
    Except RegistryFault (Registry α capacity) :=
  match e.name with
  | some name => r.registerNamed name e.motor
  | none => r.register e.motor

/-- The registry after a registration, and the slot that is answered. -/
def call (r : Registry α capacity) (e : Registration α) :
    Registry α capacity × Except RegistryFault Nat :=
  match r.enroll e with
  | .ok next => (next, .ok r.size)
  | .error f => (r, .error f)

def run (r : Registry α capacity) :
    List (Registration α) → Registry α capacity × List (Except RegistryFault Nat)
  | [] => (r, [])
  | e :: rest =>
    let (next, answer) := r.call e
    let (last, answers) := next.run rest
    (last, answer :: answers)

/-- Each registration is answered by the registry that those before it leave. -/
theorem run_cons (r : Registry α capacity) (e : Registration α) (rest : List (Registration α)) :
    r.run (e :: rest) =
      (((r.call e).1.run rest).1, (r.call e).2 :: ((r.call e).1.run rest).2) := rfl

/-- Registrations may be interrupted anywhere and resumed. -/
theorem run_append (r : Registry α capacity) (calls more : List (Registration α)) :
    r.run (calls ++ more) =
      (((r.run calls).1.run more).1, (r.run calls).2 ++ ((r.run calls).1.run more).2) := by
  -- on the first calls, each of which changes the registry that the others are made on
  induction calls generalizing r with
  | nil => rfl
  | cons e rest ih => rw [List.cons_append, run_cons, run_cons, ih, List.cons_append]

/-- What a registration that succeeds adds to the tables. -/
theorem append_eq_ok {r r' : Registry α capacity} {name : Option String} {motor : α}
    (h : r.append name motor = .ok r') :
    r.size < capacity ∧ r'.motorTable = r.motorTable.push motor ∧
      r'.nameTable = (pushWithin? capacity r.nameTable name).getD r.nameTable := by
  unfold append pushWithin? at h
  split at h
  · cases h
  · rename_i hpush
    cases h
    split at hpush
    · rename_i hroom
      cases hpush
      exact ⟨hroom, rfl, rfl⟩
    · cases hpush

/-- Under a name too, a registration that succeeds takes the next slot. -/
theorem append_of_registerNamed {r r' : Registry α capacity} {name : String} {motor : α}
    (h : r.registerNamed name motor = .ok r') : r.append (some name) motor = .ok r' := by
  unfold registerNamed at h
  split at h
  · cases h
  · split at h
    · cases h
    · exact h

end Registry

end PulseTrain
