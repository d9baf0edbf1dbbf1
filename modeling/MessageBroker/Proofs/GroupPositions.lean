import MessageBroker.Proofs.ConfinedChanges

/-!
# Whose position a key holds

The key of a position is its group, its topic and its partition, joined by
colons.  Commits are taken from acceptable groups only, whose names hold no
colon, so no two positions that were set share a key, however topics are
spelled.

Reading asks nothing of the group.  A group whose name holds a colon reads the
position of the group in front of that colon, in the partition whose topic
begins behind it.
-/

namespace MessageBroker

/-! ## Keys of positions -/

namespace Fields

variable {separator : Char} {text front back : List Char}

theorem splitOnce?_of_not_mem (free : separator ∉ text) :
    splitOnce? separator text = none := by
  have whole : text.dropWhile (· != separator) = [] := by
    rw [List.dropWhile_eq_nil_iff]
    intro character inside
    exact bne_iff_ne.2 fun same => free (same ▸ inside)
  rw [splitOnce?, whole]

/-- What stands before and after the first separator. -/
theorem splitOnce?_eq_some_iff :
    splitOnce? separator text = some (front, back) ↔
      separator ∉ front ∧ text = front ++ separator :: back := by
  constructor
  case mp =>
    intro parted
    by_cases inside : separator ∈ text
    · rcases List.eq_append_cons_of_mem inside with ⟨front', back', rfl, free⟩
      rw [splitOnce?_append free] at parted
      cases parted
      exact ⟨free, rfl⟩
    · rw [splitOnce?_of_not_mem inside] at parted
      cases parted
  case mpr =>
    rintro ⟨free, rfl⟩
    exact splitOnce?_append free back

end Fields

/-- Positions of groups without colons share no key, even where topics hold
colons. -/
theorem Key.cursor_bytes_inj
    {group group' : String}
    {home home' : PartitionKey}
    (free : ':' ∉ group.toList)
    (free' : ':' ∉ group'.toList) :
    (cursor group home).bytes = (cursor group' home').bytes ↔
      group = group' ∧ home = home' := by
  refine ⟨fun same => ?_, fun ⟨groups, homes⟩ => by rw [groups, homes]⟩
  have tails := joined_parts_of_bytes same
  simp only [parts, Bytes.joined] at tails
  rcases Bytes.append_colon_inj (Bytes.colon_not_mem_ofText free)
    (Bytes.colon_not_mem_ofText free') tails with ⟨groups, homes⟩
  rcases List.append_inj' homes (by simp [length_partitionDigits]) with
    ⟨topics, digits⟩
  have whole : cursor group home = cursor group' home' :=
    eq_of_parts rfl
      (by rw [parts, parts, groups, topics, (List.cons.inj digits).2])
  exact cursor.inj whole

namespace Cursor

/-! ## Namesakes -/

/-- A group's partition. -/
structure Seat where
  group : String
  home : PartitionKey
  deriving DecidableEq

namespace Seat

/-- The key of the position. -/
def key (seat : Seat) : Key :=
  .cursor seat.group seat.home

/-- Whether the group's name holds no colon. -/
def IsPlain (seat : Seat) : Prop :=
  ':' ∉ seat.group.toList

instance (seat : Seat) : Decidable seat.IsPlain :=
  inferInstanceAs (Decidable (':' ∉ seat.group.toList))

/-- The seat with the same key whose group holds no colon. -/
def namesake (seat : Seat) : Seat :=
  match Fields.splitOnce? ':' seat.group.toList with
  | none => seat
  | some (front, back) =>
      ⟨String.ofList front, String.ofList back ++ ":" ++ seat.home.topic,
        seat.home.partition⟩

variable {seat other : Seat}

theorem isPlain_namesake (seat : Seat) : seat.namesake.IsPlain := by
  unfold namesake IsPlain
  split
  · rename_i whole
    intro inside
    rcases List.eq_append_cons_of_mem inside with ⟨front, back, spelled, free⟩
    rw [spelled, Fields.splitOnce?_append free] at whole
    cases whole
  · rename_i front back parted
    simpa using (Fields.splitOnce?_eq_some_iff.1 parted).1

theorem namesake_of_isPlain (plain : seat.IsPlain) : seat.namesake = seat := by
  rw [namesake, Fields.splitOnce?_of_not_mem plain]

/-- A position is read at the key of its namesake. -/
theorem bytes_key_namesake (seat : Seat) :
    seat.namesake.key.bytes = seat.key.bytes := by
  unfold namesake
  split
  · rfl
  · rename_i front back parted
    have spelled : seat.group =
        String.ofList front ++ ":" ++ String.ofList back := by
      apply String.toList_inj.1
      simpa using (Fields.splitOnce?_eq_some_iff.1 parted).2
    rw [Key.bytes, Key.bytes, key, key, Key.text, Key.text, spelled]
    simp only [String.append_assoc]

theorem bytes_key_inj
    (plain : seat.IsPlain)
    (plain' : other.IsPlain) :
    seat.key.bytes = other.key.bytes ↔ seat = other := by
  rw [key, key, Key.cursor_bytes_inj plain plain']
  cases seat
  cases other
  simp

end Seat

/-! ## Commits -/

/-- A position that a group sets. -/
structure Commit where
  seat : Seat
  offset : Offset
  deriving DecidableEq

/-- What commits leave behind. -/
structure Ledger where
  keyspace : Keyspace := .empty
  /-- The commits that succeeded, the latest first. -/
  taken : List Commit := []

namespace Ledger

/-- Try one more commit. -/
def perform (limits : Limits) (ledger : Ledger) (commit : Commit) : Ledger :=
  match Cursor.commit ledger.keyspace limits commit.seat.group commit.seat.home
    commit.offset with
  | .ok keyspace => ⟨keyspace, commit :: ledger.taken⟩
  | .error _ => ledger

/-- Try commits in turn, from a keyspace without records on. -/
def run (limits : Limits) (commits : List Commit) : Ledger :=
  commits.foldl (perform limits) {}

/-- The offset of the latest commit to exactly that seat that succeeded, if one
did. -/
def latest? (ledger : Ledger) (seat : Seat) : Option Offset :=
  (ledger.taken.find? fun commit => commit.seat = seat).map (·.offset)

/-- What is recorded is what was committed, and no group with a colon committed
anything. -/
structure IsFaithful (ledger : Ledger) : Prop where
  plain : ∀ commit ∈ ledger.taken, commit.seat.IsPlain
  recorded : ∀ seat : Seat, seat.IsPlain →
    ledger.keyspace.get? seat.key.bytes =
      (ledger.latest? seat).map Record.ofCounter

theorem isFaithful_start : IsFaithful {} where
  plain := nofun
  recorded _ _ := rfl

variable {limits : Limits} {ledger : Ledger} {seat : Seat}

theorem latest?_cons
    (commit : Commit)
    (keyspace : Keyspace)
    (taken : List Commit)
    (seat : Seat) :
    latest? ⟨keyspace, commit :: taken⟩ seat =
      if commit.seat = seat then some commit.offset
      else latest? ⟨keyspace, taken⟩ seat := by
  by_cases same : commit.seat = seat <;> simp [latest?, same]

theorem IsFaithful.perform
    (faithful : ledger.IsFaithful)
    (commit : Commit) :
    (ledger.perform limits commit).IsFaithful := by
  unfold Ledger.perform
  split
  · rename_i keyspace done
    rcases commit_eq_ok_iff.1 done with ⟨named, rfl⟩
    have plain : commit.seat.IsPlain := Limits.colon_not_mem_of_checkName named
    constructor
    case plain =>
      exact List.forall_mem_cons.2 ⟨plain, faithful.plain⟩
    case recorded =>
      intro seat plain'
      rw [latest?_cons, Keyspace.setCounter, OrderedMap.get?_insert]
      by_cases same : commit.seat = seat
      · rw [if_pos same, if_pos (by rw [← same, Seat.key])]
        rfl
      · rw [if_neg same, if_neg ?different]
        · exact faithful.recorded seat plain'
        case different =>
          intro shared
          exact same ((Seat.bytes_key_inj plain' plain).1 shared).symm
  · exact faithful

theorem isFaithful_run
    (limits : Limits)
    (commits : List Commit) :
    (run limits commits).IsFaithful := by
  have kept : ∀ ledger : Ledger, ledger.IsFaithful →
      (commits.foldl (perform limits) ledger).IsFaithful := by
    induction commits with
    | nil => exact fun ledger faithful => faithful
    | cons commit rest step =>
        exact fun ledger faithful => step _ (faithful.perform commit)
  exact kept {} isFaithful_start

/-- A group with a colon in its name has committed nothing. -/
theorem IsFaithful.latest?_eq_none
    (faithful : ledger.IsFaithful)
    (colon : ¬ seat.IsPlain) :
    ledger.latest? seat = none := by
  rw [latest?, Option.map_eq_none_iff, List.find?_eq_none]
  intro commit inside same
  exact colon (of_decide_eq_true same ▸ faithful.plain commit inside)

theorem IsFaithful.position?_eq
    (faithful : ledger.IsFaithful)
    (seat : Seat) :
    position? ledger.keyspace seat.group seat.home =
      .ok (ledger.latest? seat.namesake) := by
  apply Cursor.position?_eq
  show ledger.keyspace.get? seat.key.bytes = _
  rw [← seat.bytes_key_namesake]
  exact faithful.recorded seat.namesake seat.isPlain_namesake

end Ledger

/-- Whatever was committed, a position reads as the latest one that its namesake
set.  That is the latest one that it set itself just when its group holds no
colon, or the namesake never set any. -/
theorem reads_namesake
    (limits : Limits)
    (commits : List Commit)
    (seat : Seat) :
    position? (Ledger.run limits commits).keyspace seat.group seat.home =
      .ok ((Ledger.run limits commits).latest? seat.namesake) ∧
    (position? (Ledger.run limits commits).keyspace seat.group seat.home =
        .ok ((Ledger.run limits commits).latest? seat) ↔
      seat.IsPlain ∨
      (Ledger.run limits commits).latest? seat.namesake = none) := by
  have faithful := Ledger.isFaithful_run limits commits
  rw [faithful.position?_eq seat]
  refine ⟨rfl, ?_⟩
  by_cases plain : seat.IsPlain
  · simp [plain, Seat.namesake_of_isPlain plain]
  · rw [faithful.latest?_eq_none plain]
    simp [plain]

/-- A group that set no position reads one that another group set. -/
theorem unset_position_reads :
    let ledger := Ledger.run {} [⟨⟨"a", ⟨"b:c", 0⟩⟩, 7⟩]
    position? ledger.keyspace "a:b" ⟨"c", 0⟩ = .ok (some 7) ∧
    ledger.latest? ⟨"a:b", ⟨"c", 0⟩⟩ = none :=
  ⟨rfl, rfl⟩

end Cursor

end MessageBroker
