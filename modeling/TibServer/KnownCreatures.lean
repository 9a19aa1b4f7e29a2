import Mathlib.Data.BitVec
import Mathlib.Data.Finset.Card
import Mathlib.Tactic

/-!
The creatures that a client knows (`checkCreatureAsKnown` in `protocolgamebase.cpp`). The
server keeps a set of at most 1300 ids; when it is full, a new id makes the client forget
another one, which the message of the new creature names. The loop that looks for a creature
out of sight does not pass over the new one, so the set loses it where it is out of sight
itself and comes first.
-/

namespace TibServer

/-- The order in which an `unordered_set` is walked after an insertion. -/
structure Arrangement where
  order : List (BitVec 32) → List (BitVec 32)
  perm : ∀ set, (order set).Perm set

/-- One call, with the creatures that can be seen at its time. Creatures have no id 0. -/
structure KnownCall where
  id : BitVec 32
  id_ne : id ≠ 0
  canSee : BitVec 32 → Bool
  arrangement : Arrangement
  /-- What the variable of the caller holds. -/
  removedKnown : BitVec 32

structure KnownResult where
  known : Bool
  removedKnown : BitVec 32
  knownCreatureSet : List (BitVec 32)
  deriving DecidableEq, Repr

namespace KnownCall

/-- `checkCreatureAsKnown`. -/
def checkCreatureAsKnown (call : KnownCall) (knownCreatureSet : List (BitVec 32)) :
    KnownResult :=
  if call.id ∈ knownCreatureSet then ⟨true, call.removedKnown, knownCreatureSet⟩
  else
    let knownCreatureSet := call.arrangement.order (call.id :: knownCreatureSet)
    if knownCreatureSet.length > 1300 then
      match knownCreatureSet.find? fun it => !call.canSee it with
      | some it => ⟨false, it, knownCreatureSet.erase it⟩
      | none =>
          match knownCreatureSet with
          | first :: second :: _ =>
              let it := if first = call.id then second else first
              ⟨false, it, knownCreatureSet.erase it⟩
          | _ => ⟨false, call.removedKnown, knownCreatureSet⟩
    else ⟨false, 0, knownCreatureSet⟩

/-- What the client knows after the message about the creature (`AddCreature`). -/
def receive (call : KnownCall) (result : KnownResult) (client : Finset (BitVec 32)) :
    Finset (BitVec 32) :=
  if result.known then client else insert call.id (client.erase result.removedKnown)

/-- After the call the client knows the server's set, which is within its limit and has the
id of the call. -/
structure Agreed (call : KnownCall) (server : List (BitVec 32)) (client : Finset (BitVec 32)) :
    Prop where
  same : call.receive (call.checkCreatureAsKnown server) client =
    (call.checkCreatureAsKnown server).knownCreatureSet.toFinset
  limit : (call.checkCreatureAsKnown server).knownCreatureSet.length ≤ 1300
  introduced : call.id ∈ (call.checkCreatureAsKnown server).knownCreatureSet

/-- The id is known, there is room for it, or it is not the first one out of sight. -/
def Kept (call : KnownCall) (server : List (BitVec 32)) : Prop :=
  call.id ∈ server ∨ server.length < 1300 ∨
    (call.arrangement.order (call.id :: server)).find? (fun it => !call.canSee it) ≠ some call.id

/-- The ids of a server and its client after calls that are each allowed where they come. -/
inductive Calls (allowed : KnownCall → List (BitVec 32) → Prop) :
    List (BitVec 32) → Finset (BitVec 32) → Prop
  | start : Calls allowed [] ∅
  | call {server : List (BitVec 32)} {client : Finset (BitVec 32)} (call : KnownCall)
      (before : Calls allowed server client) (fits : allowed call server) :
      Calls allowed (call.checkCreatureAsKnown server).knownCreatureSet
        (call.receive (call.checkCreatureAsKnown server) client)

/-! ### One call -/

/-- A set that the server can have: ids of creatures, each once, within the limit. -/
structure Known (server : List (BitVec 32)) : Prop where
  nodup : server.Nodup
  limit : server.length ≤ 1300
  nonzero : 0 ∉ server

variable {call : KnownCall} {server : List (BitVec 32)} {client : Finset (BitVec 32)}

theorem check_known (h : call.id ∈ server) :
    call.checkCreatureAsKnown server = ⟨true, call.removedKnown, server⟩ := by
  rw [checkCreatureAsKnown, if_pos h]

theorem check_room (h : call.id ∉ server) (hroom : server.length < 1300) :
    call.checkCreatureAsKnown server =
      ⟨false, 0, call.arrangement.order (call.id :: server)⟩ := by
  have hlength : ¬(call.arrangement.order (call.id :: server)).length > 1300 := by
    rw [(call.arrangement.perm _).length_eq, List.length_cons]
    omega
  rw [checkCreatureAsKnown, if_neg h]
  simp only [if_neg hlength]

theorem order_nodup (hserver : Known server) (h : call.id ∉ server) :
    (call.arrangement.order (call.id :: server)).Nodup :=
  (call.arrangement.perm _).nodup_iff.mpr (List.nodup_cons.mpr ⟨h, hserver.nodup⟩)

/-- In a full set some id is removed: the first out of sight if there is one, and otherwise
not the new one. -/
theorem check_full (hserver : Known server) (h : call.id ∉ server)
    (hfull : ¬server.length < 1300) :
    ∃ it ∈ call.id :: server,
      call.checkCreatureAsKnown server =
        ⟨false, it, (call.arrangement.order (call.id :: server)).erase it⟩ ∧
      (it = call.id ↔ (call.arrangement.order (call.id :: server)).find?
        (fun it => !call.canSee it) = some call.id) := by
  have hperm := call.arrangement.perm (call.id :: server)
  have hlength : (call.arrangement.order (call.id :: server)).length > 1300 := by
    rw [hperm.length_eq, List.length_cons]
    omega
  have hnodup := order_nodup hserver h
  rw [checkCreatureAsKnown, if_neg h]
  simp only [if_pos hlength]
  cases hfind : (call.arrangement.order (call.id :: server)).find? fun it => !call.canSee it with
  | some it =>
      exact ⟨it, hperm.mem_iff.mp (List.mem_of_find?_eq_some hfind), rfl, by simp⟩
  | none =>
      rcases hset : call.arrangement.order (call.id :: server) with _ | ⟨first, _ | ⟨second, rest⟩⟩
      · rw [hset] at hlength
        exact absurd hlength (by simp)
      · rw [hset] at hlength
        exact absurd hlength (by simp)
      · rw [hset, List.nodup_cons] at hnodup
        rw [hset] at hperm
        have hmem : ∀ it ∈ [first, second], it ∈ call.id :: server := by
          intro it hit
          refine hperm.mem_iff.mp ?_
          rcases List.mem_cons.mp hit with rfl | hit
          · exact List.mem_cons_self
          · exact List.mem_cons_of_mem _ (by simp_all)
        by_cases hfirst : first = call.id
        · have hsecond : second ≠ call.id := by
            rintro rfl
            exact hnodup.1 (hfirst ▸ List.mem_cons_self)
          refine ⟨second, hmem second (by simp), by simp [hfirst], by simp [hsecond]⟩
        · refine ⟨first, hmem first (by simp), by simp [hfirst], by simp [hfirst]⟩

/-- A call leaves a set that the server can have. -/
theorem Known.check (hserver : Known server) (call : KnownCall) :
    Known (call.checkCreatureAsKnown server).knownCreatureSet := by
  by_cases h : call.id ∈ server
  · rw [check_known h]
    exact hserver
  have hperm := call.arrangement.perm (call.id :: server)
  have hnonzero : 0 ∉ call.arrangement.order (call.id :: server) := by
    rw [hperm.mem_iff, List.mem_cons]
    rintro (hzero | hzero)
    · exact call.id_ne hzero.symm
    · exact hserver.nonzero hzero
  by_cases hroom : server.length < 1300
  · rw [check_room h hroom]
    refine ⟨order_nodup hserver h, ?_, hnonzero⟩
    show (call.arrangement.order (call.id :: server)).length ≤ 1300
    rw [hperm.length_eq, List.length_cons]
    omega
  · obtain ⟨it, hit, hcheck, -⟩ := check_full hserver h hroom
    rw [hcheck]
    refine ⟨(order_nodup hserver h).erase it, ?_, fun hzero => ?_⟩
    swap
    · exact hnonzero (List.mem_of_mem_erase hzero)
    show ((call.arrangement.order (call.id :: server)).erase it).length ≤ 1300
    rw [List.length_erase_of_mem (hperm.mem_iff.mpr hit), hperm.length_eq, List.length_cons]
    exact hserver.limit

/-- The client and the server agree after a call just if the new id is kept. -/
theorem agreed_iff (hserver : Known server) (call : KnownCall) :
    call.Agreed server server.toFinset ↔ call.Kept server := by
  by_cases h : call.id ∈ server
  · have hcheck := check_known h
    refine ⟨fun _ => .inl h, fun _ => ⟨?_, (hserver.check call).limit, ?_⟩⟩
    · rw [hcheck, receive, if_pos rfl]
    · rw [hcheck]
      exact h
  have hperm := call.arrangement.perm (call.id :: server)
  by_cases hroom : server.length < 1300
  · have hcheck := check_room h hroom
    refine ⟨fun _ => .inr (.inl hroom), fun _ => ⟨?_, (hserver.check call).limit, ?_⟩⟩
    · -- no creature has the id 0 that the client is told to forget
      rw [hcheck, receive, if_neg Bool.false_ne_true, Finset.erase_eq_of_notMem]
      · ext id
        rw [Finset.mem_insert, List.mem_toFinset, List.mem_toFinset, hperm.mem_iff, List.mem_cons]
      · rw [List.mem_toFinset]
        exact hserver.nonzero
    · rw [hcheck]
      exact hperm.mem_iff.mpr List.mem_cons_self
  · obtain ⟨it, hit, hcheck, hfirst⟩ := check_full hserver h hroom
    have hmem : ∀ id, id ∈ (call.arrangement.order (call.id :: server)).erase it ↔
        id ≠ it ∧ id ∈ call.id :: server := by
      intro id
      rw [(order_nodup hserver h).mem_erase_iff, hperm.mem_iff]
    constructor
    · intro hagreed
      refine .inr (.inr fun hfind => ?_)
      have hintroduced := hagreed.introduced
      rw [hcheck] at hintroduced
      exact ((hmem call.id).mp hintroduced).1 (hfirst.mpr hfind).symm
    · rintro (hknown | hlength | hfind)
      · exact absurd hknown h
      · exact absurd hlength hroom
      have hne : call.id ≠ it := fun hsame => hfind (hfirst.mp hsame.symm)
      refine ⟨?_, (hserver.check call).limit, ?_⟩
      · rw [hcheck, receive, if_neg Bool.false_ne_true]
        ext id
        rw [Finset.mem_insert, Finset.mem_erase, List.mem_toFinset, List.mem_toFinset, hmem,
          List.mem_cons]
        constructor
        · rintro (rfl | ⟨hid, hold⟩)
          · exact ⟨hne, .inl rfl⟩
          · exact ⟨hid, .inr hold⟩
        · rintro ⟨hid, rfl | hold⟩
          · exact .inl rfl
          · exact .inr ⟨hid, hold⟩
      · rw [hcheck]
        exact (hmem call.id).mpr ⟨hne, List.mem_cons_self⟩

/-! ### Runs -/

theorem Calls.mono {allowed allowed' : KnownCall → List (BitVec 32) → Prop}
    (h : Calls allowed server client)
    (hle : ∀ call server, allowed call server → allowed' call server) :
    Calls allowed' server client := by
  induction h with
  | start => exact .start
  | call call before fits ih => exact .call call ih (hle _ _ fits)

/-- While every new id is kept, the client knows the server's set. -/
theorem Calls.same (h : Calls Kept server client) :
    Known server ∧ client = server.toFinset := by
  induction h with
  | start => exact ⟨⟨List.nodup_nil, Nat.zero_le _, List.not_mem_nil⟩, rfl⟩
  | call call before fits ih =>
      obtain ⟨hknown, rfl⟩ := ih
      exact ⟨hknown.check call, ((agreed_iff hknown call).mpr fits).same⟩

/-- After calls that kept their ids, the next call leaves client and server in agreement if and
only if it keeps its id. -/
theorem known_creatures_agree_iff (hrun : Calls Kept server client) (call : KnownCall) :
    call.Agreed server client ↔ call.Kept server := by
  obtain ⟨hknown, rfl⟩ := hrun.same
  exact agreed_iff hknown call

/-! ### Samples -/

namespace Sample

/-- The order of the list itself, the new id first. -/
def newest : Arrangement where
  order set := set
  perm _ := List.Perm.refl _

/-- The ids from `n` down to 1. -/
def ids : Nat → List (BitVec 32)
  | 0 => []
  | n + 1 => BitVec.ofNat 32 (n + 1) :: ids n

theorem toNat_le_of_mem {n : Nat} (hn : n < 2 ^ 32) {id : BitVec 32} (h : id ∈ ids n) :
    id.toNat ≤ n := by
  induction n with
  | zero => exact absurd h List.not_mem_nil
  | succ n ih =>
      rcases List.mem_cons.mp h with rfl | h
      · rw [BitVec.toNat_ofNat, Nat.mod_eq_of_lt hn]
      · exact Nat.le_succ_of_le (ih (by omega) h)

theorem ids_length (n : Nat) : (ids n).length = n := by
  induction n with
  | zero => rfl
  | succ n ih => rw [ids, List.length_cons, ih]

/-- The introduction of a creature out of sight with the next id. -/
def introduce (n : Nat) (hn : n + 1 < 2 ^ 32) : KnownCall where
  id := BitVec.ofNat 32 (n + 1)
  id_ne := by
    intro h
    have := congrArg BitVec.toNat h
    rw [BitVec.toNat_ofNat, Nat.mod_eq_of_lt hn] at this
    exact Nat.succ_ne_zero n this
  canSee _ := false
  arrangement := newest
  removedKnown := 0

theorem introduce_fresh {n : Nat} (hn : n + 1 < 2 ^ 32) : (introduce n hn).id ∉ ids n := by
  intro h
  have := toNat_le_of_mem (by omega) h
  rw [introduce, BitVec.toNat_ofNat, Nat.mod_eq_of_lt hn] at this
  omega

/-- The first ids are all kept. -/
theorem introduced {n : Nat} (hn : n ≤ 1300) : ∃ client, Calls Kept (ids n) client := by
  induction n with
  | zero => exact ⟨∅, .start⟩
  | succ n ih =>
      obtain ⟨client, hcalls⟩ := ih (by omega)
      have hroom : (ids n).length < 1300 := by
        rw [ids_length]
        omega
      have hnext := Calls.call (introduce n (by omega)) hcalls (.inr (.inl hroom))
      rw [check_room (introduce_fresh _) hroom] at hnext
      exact ⟨_, hnext⟩

/-- The first call of all. -/
theorem first_agreed : (introduce 0 (by decide)).Agreed [] ∅ :=
  (known_creatures_agree_iff .start _).mpr (.inr (.inl (by decide)))

/-- The 1301st creature is out of sight and first in the set. -/
theorem last_forgotten : ¬∀ server client, Calls (fun _ _ => True) server client →
    ∀ call : KnownCall, call.Agreed server client := by
  intro h
  obtain ⟨client, hcalls⟩ := introduced (Nat.le_refl 1300)
  obtain ⟨hknown, rfl⟩ := hcalls.same
  have hagreed := h _ _ (hcalls.mono fun _ _ _ => trivial) (introduce 1300 (by decide))
  rcases (agreed_iff hknown _).mp hagreed with hold | hroom | hfind
  · exact introduce_fresh _ hold
  · rw [ids_length] at hroom
    exact absurd hroom (Nat.lt_irrefl _)
  · exact hfind (List.find?_cons_of_pos rfl)

end Sample

end KnownCall

end TibServer
