import TibServer.WaitingList

/-!
The waiting list over a run of login calls. Its clean-up removes only the entries whose time
is over at that very millisecond, and a client that leaves the list of the premium players is
erased from the other one. What a call should do is `Settled`; it does it just in the calls
that meet neither, the `Orderly` ones.
-/

namespace TibServer

/-- One call of `clientLogin`, with the configured maximum and the count of players it reads. -/
structure LoginCall where
  client : LoginClient
  maxPlayers : BitVec 32
  playersOnline : Nat
  now : BitVec 64
  deriving DecidableEq, Repr

/-- The player may not always log in, there is a maximum, and the clock is a positive
`int64_t`. -/
structure LoginCall.Limited (call : LoginCall) : Prop where
  flag : call.client.canAlwaysLogin = false
  account : call.client.accountType < ACCOUNT_TYPE_GAMEMASTER
  maximum : call.maxPlayers ≠ 0
  clock : call.now.toNat < 2 ^ 63

def guids (list : List Wait) : List (BitVec 32) := list.map (·.playerGUID)

/-- The 1-based rank of a player, 0 for one who is not there. -/
def rank (guid : BitVec 32) (list : List Wait) : Nat :=
  if (guids list).contains guid then (guids list).idxOf guid + 1 else 0

namespace WaitListInfo

def login (info : WaitListInfo) (call : LoginCall) : Option (Bool × WaitListInfo) :=
  info.clientLogin call.client call.maxPlayers call.playersOnline call.now

/-- What a call should do: no entry is left whose time is over, each player is there once, a
client let in is gone from the list it was in and is within the maximum together with those
before it, and the slots told to clients are their ranks. -/
structure Settled (info : WaitListInfo) (call : LoginCall) (admitted : Bool)
    (info' : WaitListInfo) : Prop where
  fresh : ∀ e ∈ info'.queue, call.now < e.timeout
  once : (guids info'.queue).Nodup
  erased : admitted = true →
    info'.priorityWaitList = info.priorityWaitList.filter (fun e =>
      call.now < e.timeout ∧ e.playerGUID ≠ call.client.guid) ∧
    info'.waitList = info.waitList.filter (fun e =>
      call.now < e.timeout ∧ e.playerGUID ≠ call.client.guid)
  waits : admitted = false → call.client.guid ∈ guids info'.queue
  slot : ∀ guid, info'.getClientSlot guid = rank guid info'.queue
  room : admitted = true →
    call.playersOnline + max 1 (rank call.client.guid (info.queue.filter fun e =>
      call.now < e.timeout ∨ e.playerGUID = call.client.guid)) ≤ call.maxPlayers.toNat

/-- No other player's entry is older than this millisecond, and a client that waits among the
premium players has no room yet. -/
structure Orderly (info : WaitListInfo) (call : LoginCall) : Prop where
  others : ∀ e ∈ info.queue, e.playerGUID ≠ call.client.guid → call.now ≤ e.timeout
  priority : call.client.guid ∈
      guids (info.priorityWaitList.filter fun e => e.timeout ≠ call.now) →
    call.maxPlayers.toNat < call.playersOnline +
      rank call.client.guid (info.priorityWaitList.filter fun e => e.timeout ≠ call.now)

/-- The lists after a run of calls that are each allowed where they come. -/
inductive Logins (allowed : WaitListInfo → LoginCall → Prop) : WaitListInfo → Prop
  | start : Logins allowed {}
  | call {info info' : WaitListInfo} {call : LoginCall} {admitted : Bool}
      (before : Logins allowed info) (limited : call.Limited) (fits : allowed info call)
      (result : info.login call = some (admitted, info')) : Logins allowed info'

/-! ### Ranks and places -/

@[simp] theorem guids_append (xs ys : List Wait) : guids (xs ++ ys) = guids xs ++ guids ys :=
  List.map_append

@[simp] theorem guids_cons (e : Wait) (xs : List Wait) :
    guids (e :: xs) = e.playerGUID :: guids xs := rfl

@[simp] theorem guids_nil : guids [] = [] := rfl

theorem mem_guids {guid : BitVec 32} {list : List Wait} :
    guid ∈ guids list ↔ ∃ e ∈ list, e.playerGUID = guid := List.mem_map

@[simp] theorem guids_length (list : List Wait) : (guids list).length = list.length :=
  List.length_map _

theorem rank_absent {guid : BitVec 32} {list : List Wait} (h : guid ∉ guids list) :
    rank guid list = 0 := if_neg (by simpa using h)

/-- The rank of a client counts those before it. -/
theorem rank_at {guid : BitVec 32} {front after : List Wait} {e : Wait}
    (he : e.playerGUID = guid) (hfront : guid ∉ guids front) :
    rank guid (front ++ e :: after) = front.length + 1 := by
  have hmem : (guids (front ++ e :: after)).contains guid = true := by simp [he]
  rw [rank, if_pos hmem, guids_append, List.idxOf_append_of_notMem hfront, guids_cons, he,
    List.idxOf_cons_self, guids_length]

theorem findIdx?_place {guid : BitVec 32} {list : List Wait} {n : Nat}
    (h : list.findIdx? (fun e => e.playerGUID == guid) = some n) :
    ∃ front e after, list = front ++ e :: after ∧ front.length = n ∧ e.playerGUID = guid ∧
      guid ∉ guids front := by
  obtain ⟨hn, hat, hbefore⟩ := List.findIdx?_eq_some_iff_getElem.mp h
  refine ⟨list.take n, list[n], list.drop (n + 1), ?_, ?_, beq_iff_eq.mp hat, ?_⟩
  · rw [← List.drop_eq_getElem_cons hn, List.take_append_drop]
  · rw [List.length_take]
    omega
  · intro hmem
    obtain ⟨e, he, hguid⟩ := mem_guids.mp hmem
    obtain ⟨j, hj, rfl⟩ := List.mem_iff_getElem.mp he
    rw [List.getElem_take] at hguid
    rw [List.length_take] at hj
    exact hbefore j (by omega) (beq_iff_eq.mpr hguid)

theorem findIdx?_absent {guid : BitVec 32} {list : List Wait} :
    list.findIdx? (fun e => e.playerGUID == guid) = none ↔ guid ∉ guids list := by
  rw [List.findIdx?_eq_none_iff, mem_guids]
  constructor
  · rintro h ⟨e, he, hguid⟩
    have := h e he
    simp [hguid] at this
  · intro h e he
    by_contra hcontra
    exact h ⟨e, he, by simpa using hcontra⟩

/-- Where `findClient` finds a client. -/
inductive Found (info : WaitListInfo) (guid : BitVec 32) : WaitIterator × Nat → Prop
  | priority {front after : List Wait} {e : Wait}
      (place : info.priorityWaitList = front ++ e :: after) (same : e.playerGUID = guid)
      (first : guid ∉ guids front) :
      Found info guid (.priority front.length, front.length + 1)
  | waiting {front after : List Wait} {e : Wait} (place : info.waitList = front ++ e :: after)
      (same : e.playerGUID = guid) (first : guid ∉ guids (info.priorityWaitList ++ front)) :
      Found info guid
        (.waiting front.length, info.priorityWaitList.length + front.length + 1)
  | absent (nowhere : guid ∉ guids info.queue) :
      Found info guid (.listEnd, info.priorityWaitList.length + info.waitList.length + 1)

theorem findClient_found (info : WaitListInfo) (guid : BitVec 32) :
    info.Found guid (info.findClient guid) := by
  rw [findClient]
  cases hpriority : info.priorityWaitList.findIdx? fun e => e.playerGUID == guid with
  | some n =>
      obtain ⟨front, e, after, hplace, rfl, hsame, hfirst⟩ := findIdx?_place hpriority
      exact .priority hplace hsame hfirst
  | none =>
      have hnot := findIdx?_absent.mp hpriority
      cases hwaiting : info.waitList.findIdx? fun e => e.playerGUID == guid with
      | some n =>
          obtain ⟨front, e, after, hplace, rfl, hsame, hfirst⟩ := findIdx?_place hwaiting
          refine .waiting hplace hsame ?_
          rw [guids_append, List.mem_append]
          exact fun h => h.elim hnot hfirst
      | none =>
          refine .absent ?_
          rw [queue, guids_append, List.mem_append]
          exact fun h => h.elim hnot (findIdx?_absent.mp hwaiting)

/-- The slot told to a client is its rank. -/
theorem getClientSlot_eq_rank (info : WaitListInfo) (guid : BitVec 32) :
    info.getClientSlot guid = rank guid info.queue := by
  have hfound := info.findClient_found guid
  rw [getClientSlot]
  cases hclient : info.findClient guid with
  | mk it slot =>
      rw [hclient] at hfound
      cases hfound with
      | priority place same first =>
          rw [queue, place, List.append_assoc, List.cons_append, rank_at same first]
      | waiting place same first =>
          rw [queue, place, ← List.append_assoc, rank_at same first, List.length_append]
      | absent nowhere => exact (rank_absent nowhere).symm

/-! ### What a call does -/

/-- The lists after the clean-up. -/
def cleaned (info : WaitListInfo) (now : BitVec 64) : WaitListInfo where
  priorityWaitList := cleanupList now info.priorityWaitList
  waitList := cleanupList now info.waitList

/-- What `clientLogin` does, by the place of the client after the clean-up. -/
inductive Login (info : WaitListInfo) (call : LoginCall) :
    Option (Bool × WaitListInfo) → Prop
  | empty (nobody : info.queue = []) (room : call.playersOnline < call.maxPlayers.toNat) :
      Login info call (some (true, info))
  | priorityAdmitted {front after : List Wait} {e : Wait}
      (place : cleanupList call.now info.priorityWaitList = front ++ e :: after)
      (same : e.playerGUID = call.client.guid) (first : call.client.guid ∉ guids front)
      (room : call.playersOnline + (front.length + 1) ≤ call.maxPlayers.toNat) :
      Login info call none
  | waitingAdmitted {front after : List Wait} {e : Wait}
      (place : cleanupList call.now info.waitList = front ++ e :: after)
      (same : e.playerGUID = call.client.guid)
      (first : call.client.guid ∉
        guids (cleanupList call.now info.priorityWaitList ++ front))
      (room : call.playersOnline +
        ((cleanupList call.now info.priorityWaitList).length + front.length + 1) ≤
          call.maxPlayers.toNat) :
      Login info call (some (true,
        { priorityWaitList := cleanupList call.now info.priorityWaitList
          waitList := front ++ after }))
  | priorityWaits {front after : List Wait} {e : Wait}
      (place : cleanupList call.now info.priorityWaitList = front ++ e :: after)
      (same : e.playerGUID = call.client.guid) (first : call.client.guid ∉ guids front)
      (full : call.maxPlayers.toNat < call.playersOnline + (front.length + 1)) :
      Login info call (some (false,
        { priorityWaitList :=
            front ++ ⟨timeoutOf call.now (front.length + 1), call.client.guid⟩ :: after
          waitList := cleanupList call.now info.waitList }))
  | waitingWaits {front after : List Wait} {e : Wait} (slot : Nat)
      (place : cleanupList call.now info.waitList = front ++ e :: after)
      (same : e.playerGUID = call.client.guid)
      (first : call.client.guid ∉
        guids (cleanupList call.now info.priorityWaitList ++ front)) :
      Login info call (some (false,
        { priorityWaitList := cleanupList call.now info.priorityWaitList
          waitList := front ++ ⟨timeoutOf call.now slot, call.client.guid⟩ :: after }))
  | premium (slot : Nat) (nowhere : call.client.guid ∉ guids (info.cleaned call.now).queue) :
      Login info call (some (false,
        { priorityWaitList := cleanupList call.now info.priorityWaitList ++
            [⟨timeoutOf call.now slot, call.client.guid⟩]
          waitList := cleanupList call.now info.waitList }))
  | ordinary (slot : Nat) (nowhere : call.client.guid ∉ guids (info.cleaned call.now).queue) :
      Login info call (some (false,
        { priorityWaitList := cleanupList call.now info.priorityWaitList
          waitList := cleanupList call.now info.waitList ++
            [⟨timeoutOf call.now slot, call.client.guid⟩] }))

theorem eraseIdx_place (front after : List Wait) (e : Wait) :
    (front ++ e :: after).eraseIdx front.length = front ++ after := by
  rw [List.eraseIdx_append_of_length_le (Nat.le_refl _), Nat.sub_self, List.eraseIdx_cons_zero]

theorem modify_place (front after : List Wait) (e : Wait) (f : Wait → Wait) :
    (front ++ e :: after).modify front.length f = front ++ f e :: after := by
  induction front with
  | nil => rfl
  | cons x front ih =>
      show x :: (front ++ e :: after).modify front.length f = _
      rw [ih, List.cons_append]

theorem login_spec (info : WaitListInfo) {call : LoginCall} (hcall : call.Limited) :
    info.Login call (info.login call) := by
  have hlimited : ¬(call.client.canAlwaysLogin = true ∨
      call.client.accountType ≥ ACCOUNT_TYPE_GAMEMASTER) := by
    rintro (h | h)
    · exact Bool.false_ne_true (hcall.flag.symm.trans h)
    · exact Nat.not_le_of_lt hcall.account h
  rw [login, clientLogin, if_neg hlimited]
  split
  case isTrue h =>
    rcases h with h | ⟨hpriority, hwaiting, hroom⟩
    · exact absurd h hcall.maximum
    · refine .empty ?_ hroom
      rw [queue, List.isEmpty_iff.mp hpriority, List.isEmpty_iff.mp hwaiting, List.append_nil]
  case isFalse =>
    have hfound := (info.cleaned call.now).findClient_found call.client.guid
    cases hclient : (info.cleaned call.now).findClient call.client.guid with
    | mk it slot =>
        rw [hclient] at hfound
        rw [cleaned] at hclient
        cases hfound with
        | @priority front after e place same first =>
            simp only [hclient]
            split
            case isTrue hroom => exact .priorityAdmitted place same first hroom
            case isFalse hfull =>
              have hplace : cleanupList call.now info.priorityWaitList = front ++ e :: after := place
              simp only [setTimeout, hplace, modify_place, same]
              exact .priorityWaits place same first (Nat.lt_of_not_le hfull)
        | @waiting front after e place same first =>
            simp only [hclient]
            have hplace : cleanupList call.now info.waitList = front ++ e :: after := place
            split
            case isTrue hroom =>
              simp only [eraseWaiting, Option.map_some, hplace, eraseIdx_place]
              exact .waitingAdmitted place same first hroom
            case isFalse =>
              simp only [setTimeout, hplace, modify_place, same]
              exact .waitingWaits _ place same first
        | absent nowhere =>
            simp only [hclient]
            split
            case isTrue => exact .premium _ nowhere
            case isFalse => exact .ordinary _ nowhere

/-! ### The clean-up and the new times -/

theorem cleanupList_eq (now : BitVec 64) (list : List Wait) :
    cleanupList now list = list.filter fun e => e.timeout ≠ now := by
  refine List.filter_congr fun e _ => ?_
  have hzero : e.timeout - now ≤ 0 ↔ e.timeout = now := by
    constructor <;> intro <;> bv_omega
  simp only [hzero, ne_eq, decide_not]

theorem mem_cleanupList {now : BitVec 64} {list : List Wait} {e : Wait} :
    e ∈ cleanupList now list ↔ e ∈ list ∧ e.timeout ≠ now := by
  rw [cleanupList_eq, List.mem_filter, decide_eq_true_iff]

theorem mem_cleaned {info : WaitListInfo} {now : BitVec 64} {e : Wait} :
    e ∈ (info.cleaned now).queue ↔ e ∈ info.queue ∧ e.timeout ≠ now := by
  simp only [queue, cleaned, List.mem_append, mem_cleanupList, or_and_right]

theorem cleaned_queue_sublist (info : WaitListInfo) (now : BitVec 64) :
    (info.cleaned now).queue.Sublist info.queue :=
  List.filter_sublist.append List.filter_sublist

theorem lt_timeoutOf {now : BitVec 64} (hnow : now.toNat < 2 ^ 63) (slot : Nat) :
    now < timeoutOf now slot := by
  have htime : 0 < getTimeout slot ∧ getTimeout slot ≤ 135 := by
    rw [getTimeout, getTime]
    split_ifs <;> omega
  rw [timeoutOf, BitVec.lt_def, BitVec.toNat_add, BitVec.toNat_ofNat,
    Nat.mod_eq_of_lt (a := getTimeout slot * 1000) (by omega), Nat.mod_eq_of_lt (by omega)]
  omega

variable {info : WaitListInfo} {call : LoginCall}

/-- The other players' entries that stay are not over. -/
theorem Orderly.fresh (h : info.Orderly call) {e : Wait}
    (he : e ∈ (info.cleaned call.now).queue) (hother : e.playerGUID ≠ call.client.guid) :
    call.now < e.timeout := by
  obtain ⟨hmem, hne⟩ := mem_cleaned.mp he
  have hle := h.others e hmem hother
  bv_omega

/-- Those that a list should keep without the client. -/
theorem Orderly.left_eq (h : info.Orderly call) {list : List Wait} (hlist : list ⊆ info.queue) :
    list.filter (fun e => call.now < e.timeout ∧ e.playerGUID ≠ call.client.guid) =
      (cleanupList call.now list).filter fun e => e.playerGUID ≠ call.client.guid := by
  rw [cleanupList_eq, List.filter_filter]
  refine List.filter_congr fun e he => ?_
  have hle := h.others e (hlist he)
  by_cases hclient : e.playerGUID = call.client.guid
  · simp [hclient]
  · have := hle hclient
    have hiff : call.now < e.timeout ↔ e.timeout ≠ call.now := by
      constructor <;> intro <;> bv_omega
    simp only [hiff, Bool.decide_and, Bool.and_comm]

theorem filter_others {guid : BitVec 32} {list : List Wait} (h : guid ∉ guids list) :
    list.filter (fun e => e.playerGUID ≠ guid) = list := by
  refine List.filter_eq_self.mpr fun e he => ?_
  exact decide_eq_true fun hsame => h (mem_guids.mpr ⟨e, he, hsame⟩)

/-- Of lists in which a client is once, its entry goes and nothing else. -/
theorem filter_place {guid : BitVec 32} {front after : List Wait} {e : Wait}
    (he : e.playerGUID = guid) (hnodup : (guids (front ++ e :: after)).Nodup) :
    (front ++ e :: after).filter (fun e => e.playerGUID ≠ guid) = front ++ after := by
  rw [guids_append, guids_cons, he, List.nodup_middle, List.nodup_cons, List.mem_append] at hnodup
  have hfront : guid ∉ guids front := fun h => hnodup.1 (.inl h)
  have hafter : guid ∉ guids after := fun h => hnodup.1 (.inr h)
  rw [List.filter_append, List.filter_cons_of_neg (by simp [he]), filter_others hfront,
    filter_others hafter]

/-! ### Orderly calls settle -/

theorem cleaned_queue (info : WaitListInfo) (now : BitVec 64) :
    (info.cleaned now).queue =
      cleanupList now info.priorityWaitList ++ cleanupList now info.waitList := rfl

/-- A client that waits is in its place with a new time, between others that are not over. -/
theorem Orderly.settled_waits (h : info.Orderly call) (hcall : call.Limited)
    {info' : WaitListInfo} (front after : List Wait) (slot : Nat)
    (hqueue : info'.queue = front ++ ⟨timeoutOf call.now slot, call.client.guid⟩ :: after)
    (hothers : ∀ e ∈ front ++ after, e ∈ (info.cleaned call.now).queue)
    (honce : (call.client.guid :: guids (front ++ after)).Nodup) :
    info.Settled call false info' where
  fresh := by
    rw [hqueue]
    intro e he
    rcases List.mem_cons.mp (List.perm_middle.mem_iff.mp he) with rfl | he
    · exact lt_timeoutOf hcall.clock slot
    · refine h.fresh (hothers e he) fun hsame => ?_
      exact (List.nodup_cons.mp honce).1 (mem_guids.mpr ⟨e, he, hsame⟩)
  once := by
    rw [guids_append] at honce
    rw [hqueue, guids_append, guids_cons]
    exact List.nodup_middle.mpr honce
  erased := fun hfalse => absurd hfalse Bool.false_ne_true
  waits := fun _ => by
    rw [hqueue, guids_append, guids_cons]
    exact List.mem_append_right _ List.mem_cons_self
  slot := info'.getClientSlot_eq_rank
  room := fun hfalse => absurd hfalse Bool.false_ne_true

/-- When the client's entry stays, the others that stay are those that are not over. -/
theorem Orderly.standing_eq (h : info.Orderly call) (hnodup : (guids info.queue).Nodup) {e : Wait}
    (he : e ∈ (info.cleaned call.now).queue) (same : e.playerGUID = call.client.guid) :
    (info.queue.filter fun x => call.now < x.timeout ∨ x.playerGUID = call.client.guid) =
      (info.cleaned call.now).queue := by
  rw [cleaned_queue, cleanupList_eq, cleanupList_eq, ← List.filter_append]
  refine List.filter_congr fun x hx => decide_eq_decide.mpr ?_
  by_cases hclient : x.playerGUID = call.client.guid
  · have hxe : x = e :=
      List.inj_on_of_nodup_map hnodup hx (mem_cleaned.mp he).1 (hclient.trans same.symm)
    rw [hxe]
    exact ⟨fun _ => (mem_cleaned.mp he).2, fun _ => .inr same⟩
  · have hle := h.others x hx hclient
    simp only [hclient, or_false]
    constructor <;> intro <;> bv_omega

/-- A client that is let in leaves the others, which are not over. -/
theorem Orderly.settled_admitted (h : info.Orderly call)
    (hnodup : (guids info.queue).Nodup) {front after : List Wait} {e : Wait}
    (place : cleanupList call.now info.waitList = front ++ e :: after)
    (same : e.playerGUID = call.client.guid)
    (first : call.client.guid ∉
      guids (cleanupList call.now info.priorityWaitList ++ front))
    (room : call.playersOnline +
      ((cleanupList call.now info.priorityWaitList).length + front.length + 1) ≤
        call.maxPlayers.toNat) :
    info.Settled call true
      { priorityWaitList := cleanupList call.now info.priorityWaitList
        waitList := front ++ after } := by
  have hcleaned : (guids (info.cleaned call.now).queue).Nodup :=
    hnodup.sublist ((info.cleaned_queue_sublist call.now).map _)
  rw [cleaned_queue, place, ← List.append_assoc] at hcleaned
  have hothers : ∀ x ∈ cleanupList call.now info.priorityWaitList ++ (front ++ after),
      x ∈ (info.cleaned call.now).queue := by
    intro x hx
    rw [cleaned_queue, place, ← List.append_assoc]
    rw [← List.append_assoc] at hx
    exact List.perm_middle.mem_iff.mpr (List.mem_cons_of_mem _ hx)
  have honce : (call.client.guid ::
      guids (cleanupList call.now info.priorityWaitList ++ (front ++ after))).Nodup := by
    rw [← List.append_assoc, guids_append, ← same]
    rw [guids_append, guids_cons] at hcleaned
    exact List.nodup_middle.mp hcleaned
  refine ⟨fun x hx => ?_, (List.nodup_cons.mp honce).2, fun _ => ⟨?_, ?_⟩, fun hfalse => ?_,
    getClientSlot_eq_rank _, fun _ => ?_⟩
  · refine h.fresh (hothers x hx) fun hsame => ?_
    exact (List.nodup_cons.mp honce).1 (mem_guids.mpr ⟨x, hx, hsame⟩)
  · rw [h.left_eq (List.subset_append_left _ _)]
    rw [guids_append, List.mem_append] at first
    exact (filter_others fun hmem => first (.inl hmem)).symm
  · rw [h.left_eq (List.subset_append_right _ _), place]
    refine (filter_place same ?_).symm
    rw [List.append_assoc, guids_append] at hcleaned
    exact hcleaned.of_append_right
  · exact absurd hfalse Bool.false_ne_true.symm
  · have he : e ∈ (info.cleaned call.now).queue := by
      rw [cleaned_queue, place]
      simp
    rw [h.standing_eq hnodup he same, cleaned_queue, place, ← List.append_assoc,
      rank_at same first, List.length_append]
    omega

theorem Orderly.settled (h : info.Orderly call) (hcall : call.Limited)
    (hnodup : (guids info.queue).Nodup) :
    ∃ admitted info', info.login call = some (admitted, info') ∧
      info.Settled call admitted info' := by
  have hcleaned : (guids (info.cleaned call.now).queue).Nodup :=
    hnodup.sublist ((info.cleaned_queue_sublist call.now).map _)
  have hspec := info.login_spec hcall
  generalize info.login call = result at hspec
  cases hspec with
  | empty nobody room =>
      have hlists := List.append_eq_nil_iff.mp nobody
      refine ⟨true, info, rfl, ?_, hnodup, fun _ => ?_, fun hfalse => ?_,
        info.getClientSlot_eq_rank, fun _ => ?_⟩
      · simp [nobody]
      · simp [hlists.1, hlists.2]
      · exact absurd hfalse (by simp)
      · simp only [nobody, List.filter_nil]
        exact room
  | priorityAdmitted place same first room =>
      rw [cleanupList_eq] at place
      have hmem : call.client.guid ∈
          guids (info.priorityWaitList.filter fun e => e.timeout ≠ call.now) := by
        rw [place, guids_append, guids_cons, same]
        exact List.mem_append_right _ List.mem_cons_self
      have hfull := h.priority hmem
      rw [place, rank_at same first] at hfull
      omega
  | waitingAdmitted place same first room =>
      exact ⟨_, _, rfl, h.settled_admitted hnodup place same first room⟩
  | @priorityWaits front after e place same first full =>
      refine ⟨_, _, rfl, h.settled_waits hcall front
        (after ++ cleanupList call.now info.waitList) (front.length + 1) ?_ ?_ ?_⟩
      · simp [queue]
      · intro x hx
        rw [cleaned_queue, place]
        simp only [List.mem_append, List.mem_cons] at hx ⊢
        tauto
      · rw [cleaned_queue, place, List.append_assoc, List.cons_append, guids_append, guids_cons,
          same] at hcleaned
        rw [guids_append]
        exact List.nodup_middle.mp hcleaned
  | @waitingWaits front after e slot place same first =>
      refine ⟨_, _, rfl, h.settled_waits hcall
        (cleanupList call.now info.priorityWaitList ++ front) after slot ?_ ?_ ?_⟩
      · simp [queue]
      · intro x hx
        rw [cleaned_queue, place]
        simp only [List.mem_append, List.mem_cons] at hx ⊢
        tauto
      · rw [cleaned_queue, place, ← List.append_assoc, guids_append, guids_cons, same] at hcleaned
        rw [guids_append]
        exact List.nodup_middle.mp hcleaned
  | premium slot nowhere =>
      refine ⟨_, _, rfl, h.settled_waits hcall (cleanupList call.now info.priorityWaitList)
        (cleanupList call.now info.waitList) slot ?_ (fun x hx => hx) ?_⟩
      · simp [queue]
      · exact List.nodup_cons.mpr ⟨nowhere, hcleaned⟩
  | ordinary slot nowhere =>
      refine ⟨_, _, rfl, h.settled_waits hcall (info.cleaned call.now).queue [] slot ?_ ?_ ?_⟩
      · simp [queue, cleaned]
      · simp
      · rw [List.append_nil]
        exact List.nodup_cons.mpr ⟨nowhere, hcleaned⟩

/-! ### The other calls do not -/

/-- A call keeps the entries of others that its clean-up does not remove. -/
theorem Login.keeps {admitted : Bool} {info' : WaitListInfo} {e : Wait}
    (h : info.Login call (some (admitted, info'))) (he : e ∈ (info.cleaned call.now).queue)
    (hother : e.playerGUID ≠ call.client.guid) : e ∈ info'.queue := by
  rw [cleaned_queue] at he
  cases h with
  | empty nobody room =>
      rw [← cleaned_queue] at he
      exact (mem_cleaned.mp he).1
  | waitingAdmitted place same first room
  | waitingWaits slot place same first =>
      have hne := ne_of_apply_ne Wait.playerGUID (hother.trans_eq same.symm)
      rw [place] at he
      simp only [queue, List.mem_append, List.mem_cons] at he ⊢
      tauto
  | priorityWaits place same first full =>
      have hne := ne_of_apply_ne Wait.playerGUID (hother.trans_eq same.symm)
      rw [place] at he
      simp only [queue, List.mem_append, List.mem_cons] at he ⊢
      tauto
  | premium slot nowhere
  | ordinary slot nowhere =>
      simp only [queue, List.mem_append] at he ⊢
      tauto

/-- A call with a result had no room for a client of the list of the premium players. -/
theorem Login.priority_full {admitted : Bool} {info' : WaitListInfo}
    (h : info.Login call (some (admitted, info')))
    (hmem : call.client.guid ∈ guids (cleanupList call.now info.priorityWaitList)) :
    call.maxPlayers.toNat < call.playersOnline +
      rank call.client.guid (cleanupList call.now info.priorityWaitList) := by
  cases h with
  | empty nobody room =>
      obtain ⟨e, he, -⟩ := mem_guids.mp hmem
      rw [(List.append_eq_nil_iff.mp nobody).1] at he
      exact absurd he List.not_mem_nil
  | waitingAdmitted place same first room
  | waitingWaits slot place same first =>
      rw [guids_append] at first
      exact absurd (List.mem_append_left _ hmem) first
  | priorityWaits place same first full =>
      rw [place, rank_at same first]
      exact full
  | premium slot nowhere
  | ordinary slot nowhere =>
      rw [cleaned_queue, guids_append] at nowhere
      exact absurd (List.mem_append_left _ hmem) nowhere

theorem Settled.orderly {admitted : Bool} {info' : WaitListInfo} (hcall : call.Limited)
    (hresult : info.login call = some (admitted, info'))
    (h : info.Settled call admitted info') : info.Orderly call where
  others := by
    intro e he hother
    have hspec := info.login_spec hcall
    rw [hresult] at hspec
    by_contra hover
    have hkept : e ∈ (info.cleaned call.now).queue :=
      mem_cleaned.mpr ⟨he, fun hnow => hover (BitVec.le_of_eq hnow.symm)⟩
    have hfresh := h.fresh e (hspec.keeps hkept hother)
    bv_omega
  priority := by
    have hspec := info.login_spec hcall
    rw [hresult] at hspec
    rw [← cleanupList_eq]
    exact hspec.priority_full

/-! ### Runs -/

/-- In a run of orderly calls no player is there twice. -/
theorem Logins.once (h : Logins Orderly info) : (guids info.queue).Nodup := by
  induction h with
  | start => exact List.nodup_nil
  | call before limited fits result ih =>
      obtain ⟨admitted, info', hresult, hsettled⟩ := fits.settled limited ih
      obtain ⟨rfl, rfl⟩ := Prod.mk.inj (Option.some.inj (hresult.symm.trans result))
      exact hsettled.once

/-- After a run of orderly calls, a call does what it should if and only if it is orderly. -/
theorem login_settled_iff (hrun : Logins Orderly info) (hcall : call.Limited) :
    (∃ admitted info', info.login call = some (admitted, info') ∧
      info.Settled call admitted info') ↔ info.Orderly call := by
  constructor
  · rintro ⟨admitted, info', hresult, hsettled⟩
    exact hsettled.orderly hcall hresult
  · exact fun h => h.settled hcall hrun.once

/-! ### Samples -/

namespace Sample

/-- Player 1 finds a server of one place full. -/
def first : LoginCall := ⟨{ guid := 1 }, 1, 1, 1000⟩

/-- Player 2 tries later than player 1's entry lasts. -/
def late : LoginCall := ⟨{ guid := 2 }, 1, 1, 100000⟩

/-- Player 2 tries in time. -/
def prompt : LoginCall := ⟨{ guid := 2 }, 1, 1, 2000⟩

def firstWaits : WaitListInfo where
  waitList := [⟨21000, 1⟩]

theorem first_waits : Logins Orderly firstWaits :=
  .call .start ⟨rfl, by decide, by decide, by decide⟩ ⟨by decide, by decide⟩
    (by decide : WaitListInfo.login {} first = some (false, firstWaits))

/-- Player 2 is put behind player 1. -/
theorem prompt_settled : ∃ admitted info', firstWaits.login prompt = some (admitted, info') ∧
    firstWaits.Settled prompt admitted info' :=
  (login_settled_iff first_waits ⟨rfl, by decide, by decide, by decide⟩).mpr
    ⟨by decide, by decide⟩

/-- The entry of player 1 is never removed. -/
theorem late_unsettled : ¬∀ info : WaitListInfo, Logins (fun _ _ => True) info →
    ∀ call : LoginCall, call.Limited →
      ∃ admitted info', info.login call = some (admitted, info') ∧
        info.Settled call admitted info' := by
  intro h
  have hrun : Logins (fun _ _ => True) firstWaits :=
    .call .start ⟨rfl, by decide, by decide, by decide⟩ trivial
      (by decide : WaitListInfo.login {} first = some (false, firstWaits))
  obtain ⟨admitted, info', hresult, hsettled⟩ :=
    h firstWaits hrun late ⟨rfl, by decide, by decide, by decide⟩
  have hlate : firstWaits.login late = some (false, ⟨[], [⟨21000, 1⟩, ⟨120000, 2⟩]⟩) := by decide
  obtain ⟨rfl, rfl⟩ := Prod.mk.inj (Option.some.inj (hresult.symm.trans hlate))
  exact absurd (hsettled.fresh ⟨21000, 1⟩ (by decide)) (by decide)

end Sample

end WaitListInfo

end TibServer
