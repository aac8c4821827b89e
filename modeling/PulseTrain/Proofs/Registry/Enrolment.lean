import Mathlib.Data.List.Basic
import PulseTrain.Engine.Controller

/-!
# The registry as a list

Motors and names are in two tables, and a name that finds no room in its table is dropped without
notice. That never happens: the tables have the same bound and are filled together, so that they are
the two columns of one list. A registration that succeeds adds itself at its end, one that fails
leaves it alone, and nothing is ever taken away.

* **`Registration.TooLong`**, **`Registration.Taken`**: what a registration is refused for.
* **`Registry.enrolled`**: the registrations that have succeeded.
* **`Registry.Lists`**: the tables are the columns of a list that fits and whose names differ.
* **`Registry.CallCase`**, **`Lists.call_cases`**: the four ways in which a registration can go.
* **`Registry.Verdict`**: the answer to a registration, by the list so far.
* **`Registry.run_appends_only`**: after any registrations the registry shows those that succeeded,
  in their order, and goes on to show them.
* **`Controller.register_eq_call`**, **`Controller.registerNamed_eq_call`**: so do the calls of the
  setup.
-/

namespace PulseTrain

variable {α : Type} {capacity : Nat}

/-! ## Registrations -/

namespace Registration

/-- The name does not fit. -/
def TooLong (e : Registration α) : Prop :=
  ∃ name, e.name = some name ∧ maxNameBytes < name.utf8ByteSize

/-- A registration of the list has the name already. -/
def Taken (e : Registration α) (list : List (Registration α)) : Prop :=
  ∃ name, e.name = some name ∧ ∃ other ∈ list, other.name = some name

/-- The two do not have the same name, though both may have none. -/
def Apart (e other : Registration α) : Prop := ∀ name, e.name = some name → other.name ≠ some name

theorem tooLong_iff {e : Registration α} {name : String} (hname : e.name = some name) :
    e.TooLong ↔ maxNameBytes < name.utf8ByteSize := by
  simp [TooLong, hname]

theorem taken_iff {e : Registration α} {list : List (Registration α)} {name : String}
    (hname : e.name = some name) : e.Taken list ↔ ∃ other ∈ list, other.name = some name := by
  simp [Taken, hname]

/-- Without a name there is nothing to refuse but a slot. -/
theorem not_refused {e : Registration α} (hname : e.name = none) (list : List (Registration α)) :
    ¬ e.TooLong ∧ ¬ e.Taken list := by
  simp [TooLong, Taken, hname]

/-- A name that is not taken is none of those in the list. -/
theorem apart_of_not_taken {e : Registration α} {list : List (Registration α)}
    (h : ¬ e.Taken list) : ∀ other ∈ list, other.Apart e :=
  fun other hother name hname hsame => h ⟨name, hsame, other, hother, hname⟩

end Registration

/-! ## Tables of bounded length -/

theorem pushWithin?_of_lt {β : Type} {table : Array β} (h : table.size < capacity) (entry : β) :
    pushWithin? capacity table entry = some (table.push entry) := if_pos h

theorem pushWithin?_of_le {β : Type} {table : Array β} (h : capacity ≤ table.size) (entry : β) :
    pushWithin? capacity table entry = none := if_neg (Nat.not_lt.mpr h)

namespace Registry

variable {r : Registry α capacity} {list : List (Registration α)} {e : Registration α}

/-! ## What has succeeded -/

/-- The registrations that have succeeded, in order. -/
def enrolled (calls : List (Registration α)) (answers : List (Except RegistryFault Nat)) :
    List (Registration α) :=
  (calls.zip answers).filterMap fun exchange => exchange.2.toOption.map fun _ => exchange.1

/-! ## The columns of a list -/

/-- The tables are the columns of the list. It is no longer than there are slots, and no two of its
names are the same. -/
structure Lists (r : Registry α capacity) (list : List (Registration α)) : Prop where
  motors : r.motorTable.toList = list.map (·.motor)
  names : r.nameTable.toList = list.map (·.name)
  length_le : list.length ≤ capacity
  apart : list.Pairwise Registration.Apart

theorem lists_empty : (empty : Registry α capacity).Lists [] :=
  ⟨rfl, rfl, Nat.zero_le capacity, .nil⟩

/-- The tables have the same length. -/
theorem Lists.size_eq (h : r.Lists list) :
    r.motorTable.size = list.length ∧ r.nameTable.size = list.length := by
  refine ⟨?_, ?_⟩
  · rw [← Array.length_toList, h.motors, List.length_map]
  · rw [← Array.length_toList, h.names, List.length_map]

/-- A name is looked for from the first slot on. -/
theorem Lists.position?_eq (h : r.Lists list) (name : String) :
    r.position? name = list.findIdx? (·.name == some name) := by
  have htable : r.nameTable = (list.map (·.name)).toArray := by rw [← h.names]
  rw [position?, htable, List.findIdx?_toArray, List.findIdx?_map]
  rfl

theorem Lists.isSome_position?_iff (h : r.Lists list) (name : String) :
    (r.position? name).isSome = true ↔ ∃ other ∈ list, other.name = some name := by
  rw [h.position?_eq, List.findIdx?_isSome, List.any_eq_true]
  simp only [beq_iff_eq]

/-- **A name leads to its own registration**, since no other has it. -/
theorem Lists.position?_eq_some_iff (h : r.Lists list) (name : String) (i : Nat) :
    r.position? name = some i ↔ ∃ e, list[i]? = some e ∧ e.name = some name := by
  rw [h.position?_eq, List.findIdx?_eq_some_iff_getElem]
  constructor
  · rintro ⟨hi, hname, -⟩
    exact ⟨list[i], List.getElem?_eq_getElem hi, beq_iff_eq.mp hname⟩
  · rintro ⟨e, hentry, hname⟩
    obtain ⟨hi, rfl⟩ := List.getElem?_eq_some_iff.mp hentry
    refine ⟨hi, beq_iff_eq.mpr hname, fun j hj hfirst => ?_⟩
    -- an earlier entry of the same name would be one and the same
    have hapart := List.pairwise_iff_getElem.mp h.apart j i (Nat.lt_trans hj hi) hi hj
    exact hapart name (beq_iff_eq.mp hfirst) hname

theorem Lists.position?_eq_none_iff (h : r.Lists list) (name : String) :
    r.position? name = none ↔ ∀ e ∈ list, e.name ≠ some name := by
  rw [h.position?_eq, List.findIdx?_eq_none_iff]
  simp only [beq_eq_false_iff_ne]

/-! ## What a registration does -/

/-- Both tables are filled. -/
theorem Lists.append_of_lt (h : r.Lists list) (hfree : ¬ e.Taken list)
    (hroom : list.length < capacity) :
    ∃ next, r.append e.name e.motor = .ok next ∧ next.Lists (list ++ [e]) := by
  obtain ⟨hmotors, hnames⟩ := h.size_eq
  have hroom' : r.motorTable.size < capacity := by rwa [hmotors]
  have hroom'' : r.nameTable.size < capacity := by rwa [hnames]
  -- both tables have room, so that they stay of the same length
  refine ⟨⟨r.motorTable.push e.motor, r.nameTable.push e.name⟩, ?_, ?_, ?_, ?_, ?_⟩
  · rw [append, pushWithin?_of_lt hroom', pushWithin?_of_lt hroom'']
    rfl
  · rw [Array.toList_push, h.motors, List.map_append]
    rfl
  · rw [Array.toList_push, h.names, List.map_append]
    rfl
  · rw [List.length_append]
    exact hroom
  · refine List.pairwise_append.mpr ⟨h.apart, List.pairwise_singleton _ _, ?_⟩
    intro other hother e' he'
    rw [List.mem_singleton.mp he']
    exact Registration.apart_of_not_taken hfree other hother

/-- Without a free slot the first of the two tables refuses. -/
theorem Lists.append_of_le (h : r.Lists list) (hfull : capacity ≤ list.length)
    (name : Option String) (motor : α) : r.append name motor = .error (.full capacity) := by
  rw [append, pushWithin?_of_le (by rwa [h.size_eq.1])]

/-- How a registration goes in a registry that shows a list: the registry after it, and the
answer. -/
inductive CallCase (r : Registry α capacity) (list : List (Registration α)) (e : Registration α) :
    Registry α capacity × Except RegistryFault Nat → Prop where
  | nameTooLong (hlong : e.TooLong) : CallCase r list e (r, .error .nameTooLong)
  | duplicateName (name : String) (hshort : ¬ e.TooLong) (hname : e.name = some name)
      (htaken : e.Taken list) : CallCase r list e (r, .error (.duplicateName name))
  | full (hshort : ¬ e.TooLong) (hfree : ¬ e.Taken list) (hfull : list.length = capacity) :
      CallCase r list e (r, .error (.full capacity))
  | entered (next : Registry α capacity) (hshort : ¬ e.TooLong) (hfree : ¬ e.Taken list)
      (hroom : list.length < capacity) (hnext : next.Lists (list ++ [e])) :
      CallCase r list e (next, .ok list.length)

/-- What has got past its name takes a slot if there is one. -/
theorem Lists.callCase_of_append (h : r.Lists list) (hshort : ¬ e.TooLong)
    (hfree : ¬ e.Taken list) (henroll : r.enroll e = r.append e.name e.motor) :
    CallCase r list e (r.call e) := by
  rcases Nat.lt_or_ge list.length capacity with hroom | hfull
  · obtain ⟨next, happend, hnext⟩ := h.append_of_lt hfree hroom
    rw [call, henroll, happend]
    dsimp only
    rw [size, h.size_eq.1]
    exact .entered next hshort hfree hroom hnext
  · rw [call, henroll, h.append_of_le hfull]
    exact .full hshort hfree (Nat.le_antisymm h.length_le hfull)

/-- **A registration goes one of four ways**: the length of the name is looked at first, then
whether it is taken, then whether a slot is left. -/
theorem Lists.call_cases (h : r.Lists list) (e : Registration α) :
    CallCase r list e (r.call e) := by
  cases hname : e.name with
  | none =>
    obtain ⟨hshort, hfree⟩ := Registration.not_refused hname list
    apply h.callCase_of_append hshort hfree
    rw [enroll, hname]
    rfl
  | some name =>
    have henroll : r.enroll e = r.registerNamed name e.motor := by rw [enroll, hname]
    -- length, then the other names, and only then the room, in the order of the program
    by_cases hlong : maxNameBytes < name.utf8ByteSize
    · rw [call, henroll, registerNamed, if_pos hlong]
      exact .nameTooLong ((Registration.tooLong_iff hname).mpr hlong)
    · have hshort : ¬ e.TooLong := mt (Registration.tooLong_iff hname).mp hlong
      have htaken : (r.position? name).isSome = true ↔ e.Taken list :=
        (h.isSome_position?_iff name).trans (Registration.taken_iff hname).symm
      by_cases hposition : (r.position? name).isSome = true
      · rw [call, henroll, registerNamed, if_neg hlong, if_pos hposition]
        exact .duplicateName name hshort hname (htaken.mp hposition)
      · apply h.callCase_of_append hshort (mt htaken.mpr hposition)
        rw [henroll, registerNamed, if_neg hlong, if_neg hposition, hname]

/-! ## Any number of registrations -/

/-- **The tables go on to be the columns of what has succeeded.** The induction is on the
registrations. -/
theorem Lists.run (h : r.Lists list) (calls : List (Registration α)) :
    (r.run calls).1.Lists (list ++ enrolled calls (r.run calls).2) := by
  induction calls generalizing r list with
  | nil =>
    show r.Lists (list ++ [])
    rwa [List.append_nil]
  | cons e rest ih =>
    have hcase := h.call_cases e
    rw [run_cons]
    generalize r.call e = o at hcase
    cases hcase with
    | nameTooLong _ | duplicateName _ _ _ _ | full _ _ _ => exact ih h
    | entered next _ _ _ hnext =>
      have hlast := ih hnext
      rw [List.append_assoc] at hlast
      exact hlast

/-! ## What can be seen -/

/-- The answer to a registration, where the list has been registered so far. -/
structure Verdict (capacity : Nat) (list : List (Registration α)) (e : Registration α)
    (answer : Except RegistryFault Nat) : Prop where
  nameTooLong : answer = .error .nameTooLong ↔ e.TooLong
  duplicateName : ∀ name, answer = .error (.duplicateName name) ↔
    ¬ e.TooLong ∧ e.Taken list ∧ e.name = some name
  full : answer = .error (.full capacity) ↔
    ¬ e.TooLong ∧ ¬ e.Taken list ∧ list.length = capacity
  ok : ∀ i, answer = .ok i ↔
    ¬ e.TooLong ∧ ¬ e.Taken list ∧ list.length < capacity ∧ i = list.length

/-- Each of the four ways has its own answer, so the answer tells the way. -/
theorem CallCase.verdict {o : Registry α capacity × Except RegistryFault Nat}
    (h : CallCase r list e o) : Verdict capacity list e o.2 := by
  -- in each of the four ways the conditions of the other three fail
  cases h with
  | nameTooLong hlong =>
    exact ⟨iff_of_true rfl hlong, fun _ => iff_of_false nofun fun h => h.1 hlong,
      iff_of_false nofun fun h => h.1 hlong, fun _ => iff_of_false nofun fun h => h.1 hlong⟩
  | duplicateName name hshort hname htaken =>
    refine ⟨iff_of_false nofun hshort, fun other => ?_, iff_of_false nofun fun h => h.2.1 htaken,
      fun _ => iff_of_false nofun fun h => h.2.1 htaken⟩
    constructor
    · rintro ⟨⟩
      exact ⟨hshort, htaken, hname⟩
    · rintro ⟨-, -, hother⟩
      rw [hname] at hother
      cases hother
      rfl
  | full hshort hfree hfull =>
    exact ⟨iff_of_false nofun hshort, fun _ => iff_of_false nofun fun h => hfree h.2.1,
      iff_of_true rfl ⟨hshort, hfree, hfull⟩,
      fun _ => iff_of_false nofun fun h => Nat.ne_of_lt h.2.2.1 hfull⟩
  | entered next hshort hfree hroom hnext =>
    refine ⟨iff_of_false nofun hshort, fun _ => iff_of_false nofun fun h => hfree h.2.1,
      iff_of_false nofun fun h => Nat.ne_of_lt hroom h.2.2, fun i => ?_⟩
    constructor
    · rintro ⟨⟩
      exact ⟨hshort, hfree, hroom, rfl⟩
    · rintro ⟨-, -, -, rfl⟩
      rfl

/-- An entry that is answered by a slot is now last in the list. -/
theorem CallCase.appended {o : Registry α capacity × Except RegistryFault Nat}
    (h : CallCase r list e o) {i : Nat} (hanswer : o.2 = .ok i) : o.1.Lists (list ++ [e]) := by
  cases h with
  | entered _ _ _ _ hnext => exact hnext
  | nameTooLong _ | duplicateName _ _ _ _ | full _ _ _ => cases hanswer

/-- A refusal leaves the registry as it was. -/
theorem CallCase.kept {o : Registry α capacity × Except RegistryFault Nat}
    (h : CallCase r list e o) {f : RegistryFault} (hanswer : o.2 = .error f) : o.1 = r := by
  cases h with
  | entered _ _ _ _ _ => cases hanswer
  | nameTooLong _ | duplicateName _ _ _ _ | full _ _ _ => rfl

/-- What can be seen of a registry that shows a list: what its tables hold, what the lookups find,
and how the next registration goes. -/
structure Shows (r : Registry α capacity) (list : List (Registration α)) : Prop where
  sizes : r.motorTable.size = list.length ∧ r.nameTable.size = list.length
  length_le : list.length ≤ capacity
  apart : list.Pairwise Registration.Apart
  motors : r.motors = list.map (·.motor)
  motor? : ∀ i, r.motor? i = list[i]?.map (·.motor)
  name? : ∀ i, r.name? i = list[i]?.bind (·.name)
  slotOf_ok : ∀ name i, r.slotOf name = .ok i ↔ ∃ e, list[i]? = some e ∧ e.name = some name
  slotOf_error : ∀ name f, r.slotOf name = .error f ↔
    f = .unknownName (boundedText maxNameBytes name) ∧ ∀ e ∈ list, e.name ≠ some name
  verdict : ∀ e, Verdict capacity list e (r.call e).2
  appended : ∀ e i, (r.call e).2 = .ok i → (r.call e).1.Lists (list ++ [e])
  kept : ∀ e f, (r.call e).2 = .error f → (r.call e).1 = r

/-- A lookup answers the slot of the entry with that name. -/
theorem Lists.slotOf_ok (h : r.Lists list) (name : String) (i : Nat) :
    r.slotOf name = .ok i ↔ ∃ e, list[i]? = some e ∧ e.name = some name := by
  rw [← h.position?_eq_some_iff, slotOf]
  split
  · rename_i slot hslot
    rw [hslot, Except.ok.injEq, Option.some.injEq]
  · rename_i hnone
    rw [hnone]
    exact iff_of_false nofun nofun

/-- A lookup fails exactly for the names that no entry has, and says which. -/
theorem Lists.slotOf_error (h : r.Lists list) (name : String) (f : RegistryFault) :
    r.slotOf name = .error f ↔
      f = .unknownName (boundedText maxNameBytes name) ∧ ∀ e ∈ list, e.name ≠ some name := by
  rw [← h.position?_eq_none_iff, slotOf]
  split
  · rename_i slot hslot
    rw [hslot]
    exact iff_of_false nofun nofun
  · rename_i hnone
    rw [hnone, Except.error.injEq]
    exact ⟨fun hfault => ⟨hfault.symm, rfl⟩, fun hfault => hfault.1.symm⟩

/-- **What can be seen of a registry** is what its list says. -/
theorem Lists.shows (h : r.Lists list) : r.Shows list where
  sizes := h.size_eq
  length_le := h.length_le
  apart := h.apart
  motors := h.motors
  motor? i := by
    rw [Registry.motor?, ← Array.getElem?_toList, h.motors, List.getElem?_map]
  name? i := by
    rw [Registry.name?, ← Array.getElem?_toList, h.names, List.getElem?_map]
    cases list[i]? <;> rfl
  slotOf_ok := h.slotOf_ok
  slotOf_error := h.slotOf_error
  verdict e := (h.call_cases e).verdict
  appended e _ := (h.call_cases e).appended
  kept e _ := (h.call_cases e).kept

/-- What is in a slot is what was registered there, and it is found by its own name only. -/
theorem Shows.entry (h : r.Shows list) {i : Nat} (hentry : list[i]? = some e) :
    r.motors[i]? = some e.motor ∧ r.motor? i = some e.motor ∧ r.name? i = e.name ∧
      ∀ name, r.slotOf name = .ok i ↔ e.name = some name := by
  refine ⟨?_, ?_, ?_, fun name => ?_⟩
  · rw [h.motors, List.getElem?_map, hentry]
    rfl
  · rw [h.motor?, hentry]
    rfl
  · rw [h.name?, hentry]
    rfl
  · rw [h.slotOf_ok, hentry]
    simp

/-- **The registry appends and does nothing else.** After any registrations it shows those that have
succeeded, in their order, and after more of them these are followed by those that have succeeded
since. So both tables have as many entries as have succeeded, which fit; names are found where they
are registered; a name that is too long is refused first, then one that is taken, then a motor for
which no slot is left, and what is not refused takes the slot after those so far. What has been
registered stays in its slot for ever, and what has no name is never found. -/
theorem run_appends_only (capacity : Nat) (calls more : List (Registration α)) :
    ∃ (r r' : Registry α capacity) (answers answers' : List (Except RegistryFault Nat)),
      empty.run calls = (r, answers) ∧ empty.run (calls ++ more) = (r', answers ++ answers') ∧
      r.Shows (enrolled calls answers) ∧
      r'.Shows (enrolled calls answers ++ enrolled more answers') ∧
      ∀ i e, (enrolled calls answers)[i]? = some e →
        r'.motors[i]? = some e.motor ∧ r'.motor? i = some e.motor ∧ r'.name? i = e.name ∧
          ∀ name, r'.slotOf name = .ok i ↔ e.name = some name := by
  have hempty : (empty : Registry α capacity).Lists [] := lists_empty
  have hlists := hempty.run calls
  rw [List.nil_append] at hlists
  have hlists' := hlists.run more
  refine ⟨_, _, _, _, rfl, run_append _ calls more, hlists.shows, hlists'.shows, fun i e hentry => ?_⟩
  apply hlists'.shows.entry
  rw [List.getElem?_append_left (List.getElem?_eq_some_iff.mp hentry).1, hentry]

/-- The calls with which the two slots of a registry are filled. -/
def twoMotors : List (Registration Nat) := [⟨none, 7⟩, ⟨some "z", 8⟩]

/-- A name that is taken, and a motor for which there is no slot, leave the two as they are. -/
theorem run_appends_only_twoMotors :
    ∃ (r : Registry Nat 2) (answers : List (Except RegistryFault Nat)),
      empty.run (twoMotors ++ [⟨some "z", 9⟩, ⟨none, 9⟩]) = (r, answers) ∧
      answers = [.ok 0, .ok 1, .error (.duplicateName "z"), .error (.full 2)] ∧
      r.motors[1]? = some 8 ∧ r.slotOf "z" = .ok 1 ∧ ∀ name, r.slotOf name ≠ .ok 0 := by
  obtain ⟨r, r', answers, answers', hrun, hrun', -, -, hstays⟩ :=
    run_appends_only 2 twoMotors [⟨some "z", 9⟩, ⟨none, 9⟩]
  have hanswers : answers = [.ok 0, .ok 1] :=
    (congrArg Prod.snd hrun).symm.trans (by decide +kernel)
  have hanswers' : answers ++ answers' =
      [.ok 0, .ok 1, .error (.duplicateName "z"), .error (.full 2)] :=
    (congrArg Prod.snd hrun').symm.trans (by decide +kernel)
  subst hanswers
  obtain ⟨-, -, -, hunnamed⟩ := hstays 0 ⟨none, 7⟩ rfl
  obtain ⟨hmotor, -, -, hnamed⟩ := hstays 1 ⟨some "z", 8⟩ rfl
  refine ⟨r', _, hrun', hanswers', hmotor, (hnamed "z").mpr rfl, fun name hfound => ?_⟩
  cases (hunnamed name).mp hfound

end Registry

/-! ## The setup -/

namespace Controller

variable {n : Nat}

/-- A registration in the setup is one in its registry, and nothing else. -/
theorem register_eq_call (c : Controller n) (motor : MotorNumber) :
    c.register motor =
      ⟨{ c with motors := (c.motors.call ⟨none, motor⟩).1 },
        (c.motors.call ⟨none, motor⟩).2.mapError Fault.registry, []⟩ := by
  unfold register attempt Registry.call Registry.enroll
  dsimp only
  cases c.motors.register motor <;> rfl

/-- A registration by name in the setup is one in its registry, too. -/
theorem registerNamed_eq_call (c : Controller n) (name : String) (motor : MotorNumber) :
    c.registerNamed name motor =
      ⟨{ c with motors := (c.motors.call ⟨some name, motor⟩).1 },
        (c.motors.call ⟨some name, motor⟩).2.mapError Fault.registry, []⟩ := by
  unfold registerNamed attempt Registry.call Registry.enroll
  dsimp only
  cases c.motors.registerNamed name motor <;> rfl

end Controller

end PulseTrain
