import TibServer.Party

/-!
The links between players and parties agree on both sides in every run: an
invariant of all operations, and a second one, that no empty party is alive,
which holds between them.
-/

namespace TibServer

namespace Parties

variable {s s' : Parties} {p q : PlayerId} {ref r : PartyRef} {party : Party}

/-! ### What the operations write -/

@[simp] theorem setPlayer_player (s : Parties) (p q : PlayerId) (links : PartyLinks) :
    (s.setPlayer p links).player q = if q = p then links else s.player q := by
  simp [setPlayer, Function.update_apply]

@[simp] theorem setPlayer_party (s : Parties) (p : PlayerId) (links : PartyLinks) :
    (s.setPlayer p links).party = s.party := rfl

@[simp] theorem setPlayer_next (s : Parties) (p : PlayerId) (links : PartyLinks) :
    (s.setPlayer p links).next = s.next := rfl

@[simp] theorem setPlayer_online (s : Parties) (p : PlayerId) (links : PartyLinks) :
    (s.setPlayer p links).online = s.online := rfl

theorem setParty_player (s : Parties) (p q : PlayerId) (party : Option PartyRef) :
    (s.setParty p party).player q = if q = p then { s.player p with party } else s.player q :=
  s.setPlayer_player p q _

@[simp] theorem write_player (s : Parties) (ref : PartyRef) (party : Option Party) :
    (s.write ref party).player = s.player := rfl

@[simp] theorem write_party (s : Parties) (ref r : PartyRef) (party : Option Party) :
    (s.write ref party).party r = if r = ref then party else s.party r := by
  simp [write, Function.update_apply]

@[simp] theorem write_next (s : Parties) (ref : PartyRef) (party : Option Party) :
    (s.write ref party).next = s.next := rfl

@[simp] theorem write_online (s : Parties) (ref : PartyRef) (party : Option Party) :
    (s.write ref party).online = s.online := rfl

/-- Two states that differ in the links of players alone. -/
structure SameParties (s s' : Parties) : Prop where
  party : s'.party = s.party
  next : s'.next = s.next
  online : s'.online = s.online

theorem addPartyInvitation_player (s : Parties) (p : PlayerId) (ref : PartyRef) :
    SameParties s (s.addPartyInvitation p ref) ∧
      ∀ q, (s.addPartyInvitation p ref).player q =
        if q = p ∧ ref ∉ (s.player p).invitePartyList then { s.player p with
          invitePartyList := ref :: (s.player p).invitePartyList }
        else s.player q := by
  unfold addPartyInvitation
  split
  · next known => exact ⟨⟨rfl, rfl, rfl⟩, by simp [known]⟩
  · next new =>
      refine ⟨⟨rfl, rfl, rfl⟩, fun q => ?_⟩
      simp [new]

theorem removeInvitations (l : List PlayerId) (s : Parties) (ref : PartyRef) :
    SameParties s (l.foldl (fun s invitee => s.removePartyInvitation invitee ref) s) ∧
      ∀ p, (l.foldl (fun s invitee => s.removePartyInvitation invitee ref) s).player p =
        if p ∈ l then { s.player p with
          invitePartyList := (s.player p).invitePartyList.filter (· ≠ ref) }
        else s.player p := by
  induction l generalizing s with
  | nil => exact ⟨⟨rfl, rfl, rfl⟩, by simp⟩
  | cons a l ih =>
      obtain ⟨same, player⟩ := ih (s.removePartyInvitation a ref)
      refine ⟨⟨same.party, same.next, same.online⟩, fun p => ?_⟩
      rw [List.foldl_cons, player]
      by_cases here : p = a
      · subst here
        by_cases later : p ∈ l <;> simp [removePartyInvitation, later, List.filter_filter]
      · by_cases later : p ∈ l <;> simp [removePartyInvitation, here, later]

theorem removeParties (l : List PlayerId) (s : Parties) :
    SameParties s (l.foldl (fun s member => s.setParty member none) s) ∧
      ∀ p, (l.foldl (fun s member => s.setParty member none) s).player p =
        if p ∈ l then { s.player p with party := none } else s.player p := by
  induction l generalizing s with
  | nil => exact ⟨⟨rfl, rfl, rfl⟩, by simp⟩
  | cons a l ih =>
      obtain ⟨same, player⟩ := ih (s.setParty a none)
      refine ⟨⟨same.party, same.next, same.online⟩, fun p => ?_⟩
      rw [List.foldl_cons, player]
      by_cases here : p = a
      · subst here
        by_cases later : p ∈ l <;> simp [setParty, later]
      · by_cases later : p ∈ l <;> simp [setParty, here, later]

/-- A party that is disbanded is gone, and so are all links to it. -/
structure Disbanded (s s' : Parties) (ref : PartyRef) (old : Party) : Prop where
  party : ∀ r, s'.party r = if r = ref then none else s.party r
  next : s'.next = s.next
  online : s'.online = s.online
  link : ∀ p, (s'.player p).party =
    if p = old.leader ∨ p ∈ old.memberList then none else (s.player p).party
  invitations : ∀ p, (s'.player p).invitePartyList =
    if p ∈ old.inviteList then (s.player p).invitePartyList.filter (· ≠ ref)
    else (s.player p).invitePartyList

theorem disband_disbanded (h : s.party ref = some party) :
    Disbanded s (s.disband ref) ref party := by
  obtain ⟨same, player⟩ :=
    removeInvitations party.inviteList (s.setParty party.leader none) ref
  obtain ⟨same', player'⟩ := removeParties party.memberList
    (party.inviteList.foldl (fun s invitee => s.removePartyInvitation invitee ref)
      (s.setParty party.leader none))
  unfold disband
  rw [h]
  refine ⟨fun r => ?_, same'.next.trans same.next, same'.online.trans same.online,
    fun p => ?_, fun p => ?_⟩
  · rw [write_party, same'.party, same.party]
    rfl
  · rw [write_player, player', player, setParty_player]
    grind
  · rw [write_player, player', player, setParty_player]
    grind

end Parties

/-- No one is in a party twice, nor invited to the party he is in. -/
structure Party.Proper (party : Party) : Prop where
  members_nodup : party.memberList.Nodup
  invites_nodup : party.inviteList.Nodup
  leader_apart : party.leader ∉ party.memberList
  invites_apart : ∀ p ∈ party.inviteList, party.leader ≠ p ∧ p ∉ party.memberList

/-- The player is the leader of the party or in its list of members. -/
def Party.Has (party : Party) (p : PlayerId) : Prop := party.leader = p ∨ p ∈ party.memberList

namespace Parties

variable {s s' : Parties} {p q : PlayerId} {ref r : PartyRef} {party new : Party}

/-! ### The invariant -/

/-- The links of players and parties agree. -/
structure Wired (s : Parties) : Prop where
  linked : ∀ p r, (s.player p).party = some r ↔ ∃ party, s.party r = some party ∧ party.Has p
  invited : ∀ p r, r ∈ (s.player p).invitePartyList ↔
    ∃ party, s.party r = some party ∧ p ∈ party.inviteList
  invitations_nodup : ∀ p, (s.player p).invitePartyList.Nodup
  proper : ∀ {r party}, s.party r = some party → party.Proper
  fresh : ∀ {r party}, s.party r = some party → r < s.next

/-- No party without members and invited players is alive. -/
def Populated (s : Parties) : Prop :=
  ∀ r party, s.party r = some party → party.memberList ≠ [] ∨ party.inviteList ≠ []

/-- A player who is not online has no links. -/
def Absent (s : Parties) : Prop :=
  ∀ p, s.online p = false → (s.player p).party = none ∧ (s.player p).invitePartyList = []

/-- All that holds between two events. -/
structure Intact (s : Parties) : Prop where
  wired : s.Wired
  populated : s.Populated
  absent : s.Absent

/-- Who is linked to a party is in it. -/
theorem Wired.has_iff (h : s.Wired) (alive : s.party ref = some party) (p : PlayerId) :
    (s.player p).party = some ref ↔ party.Has p := by
  rw [h.linked, alive]
  simp

theorem Wired.invited_iff (h : s.Wired) (alive : s.party ref = some party) (p : PlayerId) :
    ref ∈ (s.player p).invitePartyList ↔ p ∈ party.inviteList := by
  rw [h.invited, alive]
  simp

/-! ### One party at a time

Every operation writes one party; the links to the others stay. -/

/-- The links of a state in which one party, and the links to it, are new. -/
theorem Wired.rewritten (h : s.Wired)
    (written : ∀ r, s'.party r = if r = ref then some new else s.party r)
    (next : s.next ≤ s'.next) (lt : ref < s'.next)
    (link : ∀ p r, (s'.player p).party = some r ↔
      if r = ref then new.Has p else (s.player p).party = some r)
    (invitations : ∀ p r, r ∈ (s'.player p).invitePartyList ↔
      if r = ref then p ∈ new.inviteList else r ∈ (s.player p).invitePartyList)
    (nodup : ∀ p, (s'.player p).invitePartyList.Nodup) (proper : new.Proper) : s'.Wired := by
  refine ⟨fun p r => ?_, fun p r => ?_, nodup, fun {r pt} hr => ?_, fun {r pt} hr => ?_⟩
  · rw [link, written]
    split_ifs
    · simp
    · exact h.linked p r
  · rw [invitations, written]
    split_ifs
    · simp
    · exact h.invited p r
  · rw [written] at hr
    split_ifs at hr
    · exact Option.some.inj hr ▸ proper
    · exact h.proper hr
  · rw [written] at hr
    split_ifs at hr with same
    · exact same ▸ lt
    · exact lt_of_lt_of_le (h.fresh hr) next

/-- The links of a state from which one party is gone. -/
theorem Wired.erased (h : s.Wired) (gone : ∀ r, s'.party r = if r = ref then none else s.party r)
    (next : s'.next = s.next)
    (link : ∀ p r, (s'.player p).party = some r ↔ r ≠ ref ∧ (s.player p).party = some r)
    (invitations : ∀ p r, r ∈ (s'.player p).invitePartyList ↔
      r ≠ ref ∧ r ∈ (s.player p).invitePartyList)
    (nodup : ∀ p, (s'.player p).invitePartyList.Nodup) : s'.Wired := by
  have old : ∀ {r pt}, s'.party r = some pt → s.party r = some pt := by
    intro r pt hr
    rw [gone] at hr
    split_ifs at hr
    exact hr
  refine ⟨fun p r => ?_, fun p r => ?_, nodup, fun hr => h.proper (old hr), fun hr => ?_⟩
  · rw [link, h.linked, gone]
    split_ifs with same <;> simp [same]
  · rw [invitations, h.invited, gone]
    split_ifs with same <;> simp [same]
  · rw [next]
    exact h.fresh (old hr)

/-! ### Disbanding -/

theorem Wired.disbanded (h : s.Wired) (alive : s.party ref = some party)
    (d : Disbanded s s' ref party) : s'.Wired := by
  refine h.erased d.party d.next (fun p r => ?_) (fun p r => ?_) fun p => ?_
  · rw [d.link]
    have mine := h.has_iff alive p
    simp only [Party.Has] at mine
    grind
  · rw [d.invitations]
    have mine := h.invited_iff alive p
    grind
  · rw [d.invitations]
    have nodup := h.invitations_nodup p
    split_ifs
    · exact nodup.filter _
    · exact nodup

theorem Disbanded.populated (d : Disbanded s s' ref party)
    (h : ∀ r pt, r ≠ ref → s.party r = some pt → pt.memberList ≠ [] ∨ pt.inviteList ≠ []) :
    s'.Populated := by
  intro r pt hr
  rw [d.party] at hr
  split_ifs at hr with same
  exact h r pt same hr

theorem Disbanded.absent (d : Disbanded s s' ref party) (h : s.Absent) : s'.Absent := by
  intro p offline
  rw [d.online] at offline
  obtain ⟨link, invitations⟩ := h p offline
  rw [d.link, d.invitations, link, invitations]
  simp

theorem Intact.disband (h : s.Intact) (ref : PartyRef) : (s.disband ref).Intact := by
  cases alive : s.party ref with
  | none =>
      unfold Parties.disband
      rw [alive]
      exact h
  | some party =>
      have d := disband_disbanded alive
      exact ⟨h.wired.disbanded alive d, d.populated fun r pt _ => h.populated r pt, d.absent h.absent⟩

/-- A party that may have become empty is disbanded if it has. -/
theorem intact_disbandIfEmpty (hw : s.Wired) (ha : s.Absent)
    (hp : ∀ r pt, r ≠ ref → s.party r = some pt → pt.memberList ≠ [] ∨ pt.inviteList ≠ []) :
    (s.disbandIfEmpty ref false).Intact := by
  unfold disbandIfEmpty
  cases alive : s.party ref with
  | none =>
      refine ⟨hw, fun r pt hr => hp r pt ?_ hr, ha⟩
      rintro rfl
      rw [alive] at hr
      cases hr
  | some party =>
      simp only [Bool.false_or]
      split
      · have d := disband_disbanded alive
        exact ⟨hw.disbanded alive d, d.populated hp, d.absent ha⟩
      · next filled =>
          refine ⟨hw, fun r pt hr => ?_, ha⟩
          by_cases same : r = ref
          · subst same
            obtain rfl := Option.some.inj (alive.symm.trans hr)
            simpa [Party.empty, or_iff_not_imp_left] using filled
          · exact hp r pt same hr

/-! ### Founding, inviting and joining -/

theorem newParty_player (s : Parties) (p q : PlayerId) : (s.newParty p).player q =
    if q = p then { s.player p with party := some s.next } else s.player q := by
  unfold newParty
  rw [setParty_player]
  rfl

theorem newParty_party (s : Parties) (p : PlayerId) (r : PartyRef) : (s.newParty p).party r =
    if r = s.next then some { leader := p } else s.party r :=
  s.write_party _ _ _

theorem Wired.newParty (h : s.Wired) (hp : (s.player p).party = none) : (s.newParty p).Wired := by
  have unlinked : ∀ q, (s.player q).party ≠ some s.next := by
    intro q hq
    obtain ⟨party, alive, -⟩ := (h.linked q _).mp hq
    exact lt_irrefl _ (h.fresh alive)
  have uninvited : ∀ q, s.next ∉ (s.player q).invitePartyList := by
    intro q hq
    obtain ⟨party, alive, -⟩ := (h.invited q _).mp hq
    exact lt_irrefl _ (h.fresh alive)
  refine h.rewritten (s.newParty_party p) (Nat.le_succ _) (Nat.lt_succ_self _)
    (fun q r => ?_) (fun q r => ?_) (fun q => ?_) ⟨?_, ?_, ?_, ?_⟩
  · rw [newParty_player, Party.Has]
    have := unlinked q
    grind
  · rw [newParty_player]
    have := uninvited q
    grind
  · rw [newParty_player]
    have nodup := h.invitations_nodup q
    split_ifs with same
    · exact same ▸ nodup
    · exact nodup
  · exact List.nodup_nil
  · exact List.nodup_nil
  · exact List.not_mem_nil
  · simp

/-- What an invitation writes. -/
structure Invited (s s' : Parties) (ref : PartyRef) (p : PlayerId) (old : Party) : Prop where
  party : ∀ r, s'.party r = if r = ref then some { old with inviteList := old.inviteList ++ [p] }
    else s.party r
  next : s'.next = s.next
  online : s'.online = s.online
  link : ∀ q, (s'.player q).party = (s.player q).party
  invitations : ∀ q, (s'.player q).invitePartyList =
    if q = p ∧ ref ∉ (s.player p).invitePartyList then ref :: (s.player p).invitePartyList
    else (s.player q).invitePartyList

theorem invitePlayer_invited (alive : s.party ref = some party) (hp : p ∉ party.inviteList) :
    Invited s (s.invitePlayer ref p) ref p party := by
  unfold invitePlayer
  rw [alive]
  simp only [hp, if_false]
  obtain ⟨same, player⟩ := addPartyInvitation_player
    (s.write ref (some { party with inviteList := party.inviteList ++ [p] })) p ref
  refine ⟨fun r => ?_, same.next, same.online, fun q => ?_, fun q => ?_⟩
  · rw [same.party, write_party]
  · rw [player, write_player]
    split_ifs with here
    · rw [here.1]
    · rfl
  · rw [player, write_player]
    split_ifs <;> rfl

theorem Invited.wired (d : Invited s s' ref p party) (h : s.Wired)
    (alive : s.party ref = some party) (hp : p ∉ party.inviteList)
    (apart : (s.player p).party ≠ some ref) : s'.Wired := by
  have outside : ¬party.Has p := fun has => apart ((h.has_iff alive p).mpr has)
  have proper := h.proper alive
  refine h.rewritten d.party d.next.ge (d.next ▸ h.fresh alive) (fun q r => ?_) (fun q r => ?_)
    (fun q => ?_) ⟨proper.members_nodup, ?_, proper.leader_apart, ?_⟩
  · rw [d.link]
    have mine := h.has_iff alive q
    simp only [Party.Has] at mine ⊢
    grind
  · rw [d.invitations]
    have mine := h.invited_iff alive
    grind
  · rw [d.invitations]
    have nodup := h.invitations_nodup
    grind
  · exact List.nodup_append.mpr ⟨proper.invites_nodup, by simp, by grind⟩
  · have was := proper.invites_apart
    simp only [Party.Has] at outside
    grind

/-- What joining writes. -/
structure Joined (s s' : Parties) (ref : PartyRef) (p : PlayerId) (old : Party) : Prop where
  party : ∀ r, s'.party r = if r = ref then some { old with
      inviteList := old.inviteList.erase p
      memberList := old.memberList ++ [p] } else s.party r
  next : s'.next = s.next
  online : s'.online = s.online
  link : ∀ q, (s'.player q).party = if q = p then some ref else (s.player q).party
  invitations : ∀ q, (s'.player q).invitePartyList =
    if q = p then (s.player p).invitePartyList.filter (· ≠ ref)
    else (s.player q).invitePartyList

theorem joinParty_joined (alive : s.party ref = some party) (hp : p ∈ party.inviteList) :
    Joined s (s.joinParty ref p) ref p party := by
  unfold joinParty
  rw [alive]
  simp only [hp, if_true, removePartyInvitation]
  refine ⟨fun r => write_party _ _ _ _, rfl, rfl, fun q => ?_, fun q => ?_⟩
  · rw [setPlayer_player, setParty_player, setParty_player, write_player]
    grind
  · rw [setPlayer_player, setParty_player, setParty_player, write_player]
    grind

theorem Joined.wired (d : Joined s s' ref p party) (h : s.Wired)
    (alive : s.party ref = some party) (hp : p ∈ party.inviteList)
    (free : (s.player p).party = none) : s'.Wired := by
  have proper := h.proper alive
  have apart := proper.invites_apart p hp
  refine h.rewritten d.party d.next.ge (d.next ▸ h.fresh alive) (fun q r => ?_) (fun q r => ?_)
    (fun q => ?_) ⟨?_, proper.invites_nodup.erase p, ?_, ?_⟩
  · rw [d.link]
    have mine := h.has_iff alive q
    simp only [Party.Has] at mine ⊢
    grind
  · rw [d.invitations]
    have mine := h.invited_iff alive
    have nodup := proper.invites_nodup
    grind [List.Nodup.mem_erase_iff]
  · rw [d.invitations]
    have nodup := h.invitations_nodup q
    split_ifs with same
    · exact (same ▸ nodup).filter _
    · exact nodup
  · exact List.nodup_append.mpr ⟨proper.members_nodup, by simp, by grind⟩
  · have was := proper.leader_apart
    grind
  · have was := proper.invites_apart
    have nodup := proper.invites_nodup
    grind [List.Nodup.mem_erase_iff]

/-! ### Leaving -/

/-- Passing the leadership changes the party alone. -/
theorem passPartyLeadership_party (alive : s.party ref = some party) (ne : party.leader ≠ p)
    (hp : (s.player p).party = some ref) :
    s.passPartyLeadership ref p = s.write ref (some { party with
      leader := p
      memberList := party.leader :: party.memberList.erase p }) := by
  unfold passPartyLeadership
  rw [alive]
  simp [ne, hp]

theorem Wired.passPartyLeadership (h : s.Wired) (ref : PartyRef) (p : PlayerId) :
    (s.passPartyLeadership ref p).Wired := by
  cases alive : s.party ref with
  | none =>
      unfold Parties.passPartyLeadership
      rw [alive]
      exact h
  | some party =>
      by_cases same : party.leader = p ∨ (s.player p).party ≠ some ref
      · unfold Parties.passPartyLeadership
        rw [alive]
        simp only [same, if_true]
        exact h
      · obtain ⟨ne, linked⟩ := not_or.mp same
        rw [not_not] at linked
        rw [passPartyLeadership_party alive ne linked]
        have member : p ∈ party.memberList :=
          ((h.has_iff alive p).mp linked).resolve_left ne
        have proper := h.proper alive
        have nodup := proper.members_nodup
        have apart := proper.leader_apart
        refine h.rewritten (write_party _ _ · _) le_rfl (h.fresh alive) (fun q r => ?_)
          (fun q r => ?_) h.invitations_nodup ⟨?_, proper.invites_nodup, ?_, ?_⟩
        · rw [write_player]
          have mine := h.has_iff alive q
          simp only [Party.Has] at mine ⊢
          grind [List.Nodup.mem_erase_iff]
        · rw [write_player]
          have mine := h.invited_iff alive q
          grind
        · grind [List.Nodup.erase, List.Nodup.mem_erase_iff]
        · grind [List.Nodup.mem_erase_iff]
        · have was := proper.invites_apart
          grind [List.Nodup.mem_erase_iff]

/-- What taking a member off writes. -/
structure Removed (s s' : Parties) (ref : PartyRef) (p : PlayerId) (old : Party) : Prop where
  party : ∀ r, s'.party r = if r = ref then some { old with memberList := old.memberList.erase p }
    else s.party r
  next : s'.next = s.next
  online : s'.online = s.online
  link : ∀ q, (s'.player q).party = if q = p then none else (s.player q).party
  invitations : ∀ q, (s'.player q).invitePartyList = (s.player q).invitePartyList

theorem removeMember_removed (alive : s.party ref = some party) (p : PlayerId) :
    Removed s (s.removeMember ref p) ref p party := by
  unfold removeMember
  rw [alive]
  refine ⟨fun r => write_party _ _ _ _, rfl, rfl, fun q => ?_, fun q => ?_⟩
  · rw [setParty_player, write_player]
    split_ifs <;> rfl
  · rw [setParty_player, write_player]
    split_ifs with same
    · rw [same]
    · rfl

theorem Removed.wired (d : Removed s s' ref p party) (h : s.Wired)
    (alive : s.party ref = some party) (member : p ∈ party.memberList) : s'.Wired := by
  have proper := h.proper alive
  have nodup := proper.members_nodup
  have apart := proper.leader_apart
  refine h.rewritten d.party d.next.ge (d.next ▸ h.fresh alive) (fun q r => ?_) (fun q r => ?_)
    (fun q => ?_) ⟨nodup.erase p, proper.invites_nodup, ?_, ?_⟩
  · rw [d.link]
    have mine := h.has_iff alive q
    simp only [Party.Has] at mine ⊢
    grind [List.Nodup.mem_erase_iff]
  · rw [d.invitations]
    have mine := h.invited_iff alive q
    grind
  · rw [d.invitations]
    exact h.invitations_nodup q
  · grind [List.Nodup.mem_erase_iff]
  · have was := proper.invites_apart
    grind [List.Nodup.mem_erase_iff]

theorem Removed.absent (d : Removed s s' ref p party) (h : s.Absent) : s'.Absent := by
  intro q offline
  rw [d.online] at offline
  obtain ⟨link, invitations⟩ := h q offline
  rw [d.link, d.invitations, link, invitations]
  simp

/-- A leader who goes last takes the party with him. -/
theorem Removed.disbanded (d : Removed s s' ref p party) (leader : party.leader = p)
    (apart : p ∉ party.memberList) : Disbanded s (s'.disband ref) ref party := by
  have list : party.memberList.erase p = party.memberList := List.erase_of_not_mem apart
  have gone : Disbanded s' (s'.disband ref) ref party := disband_disbanded (by
    rw [d.party, if_pos rfl, list])
  refine ⟨fun r => ?_, gone.next.trans d.next, gone.online.trans d.online, fun q => ?_,
    fun q => ?_⟩
  · rw [gone.party, d.party]
    split_ifs <;> rfl
  · rw [gone.link, d.link]
    grind
  · rw [gone.invitations, d.invitations]

theorem disbandIfEmpty_link (missing : Bool) (hp : (s.player p).party = none) :
    ((s.disbandIfEmpty ref missing).player p).party = none := by
  unfold disbandIfEmpty
  cases alive : s.party ref with
  | none => exact hp
  | some party =>
      simp only
      split
      · rw [(disband_disbanded alive).link, hp, ite_self]
      · exact hp

/-- A member is taken off, and the party disbanded if it is empty then. -/
theorem intact_removeMember (hw : s.Wired) (ha : s.Absent)
    (hp : ∀ r pt, r ≠ ref → s.party r = some pt → pt.memberList ≠ [] ∨ pt.inviteList ≠ [])
    (alive : s.party ref = some party) (member : p ∈ party.memberList) :
    ((s.removeMember ref p).disbandIfEmpty ref false).Intact ∧
      (((s.removeMember ref p).disbandIfEmpty ref false).player p).party = none := by
  have d := removeMember_removed alive p
  refine ⟨intact_disbandIfEmpty (d.wired hw alive member) (d.absent ha) fun r pt ne hr => ?_,
    disbandIfEmpty_link false (by rw [d.link, if_pos rfl])⟩
  rw [d.party, if_neg ne] at hr
  exact hp r pt ne hr

/-- The last leader leaves. -/
theorem Intact.leave_last (h : s.Intact) (alive : s.party ref = some party)
    (leader : party.leader = p) :
    ((s.removeMember ref p).disbandIfEmpty ref true).Intact ∧
      (((s.removeMember ref p).disbandIfEmpty ref true).player p).party = none := by
  have removed := removeMember_removed alive p
  have d := removed.disbanded leader (leader ▸ (h.wired.proper alive).leader_apart)
  have ends : (s.removeMember ref p).disbandIfEmpty ref true =
      (s.removeMember ref p).disband ref := by
    simp only [disbandIfEmpty, removed.party, if_true, Bool.true_or]
  rw [ends]
  refine ⟨⟨h.wired.disbanded alive d, d.populated fun r pt _ => h.populated r pt,
    d.absent h.absent⟩, ?_⟩
  rw [d.link, if_pos (.inl leader.symm)]

/-- The leader passes the leadership on and leaves as a member. -/
theorem Intact.leave_passing (h : s.Intact) (alive : s.party ref = some party)
    (leader : party.leader = p) {front : PlayerId} {rest : List PlayerId}
    (list : party.memberList = front :: rest) :
    (((s.passPartyLeadership ref front).removeMember ref p).disbandIfEmpty ref false).Intact ∧
      ((((s.passPartyLeadership ref front).removeMember ref p).disbandIfEmpty ref
        false).player p).party = none := by
  have member : front ∈ party.memberList := by simp [list]
  have ne : party.leader ≠ front := fun e => (h.wired.proper alive).leader_apart (e ▸ member)
  have wired := h.wired.passPartyLeadership ref front
  rw [passPartyLeadership_party alive ne ((h.wired.has_iff alive front).mpr (.inr member))] at wired ⊢
  refine intact_removeMember wired h.absent (fun r pt other hr => ?_)
    ((write_party _ _ _ _).trans (if_pos rfl)) (by simp [leader])
  rw [write_party, if_neg other] at hr
  exact h.populated r pt hr

theorem passOn_same (h : party.leader ≠ p ∨ missingLeader party p = true) :
    s.passOn ref party p = s := by
  unfold passOn
  split
  · rcases h with other | missing
    · simp [other]
    · simp [missing]
  · rfl

theorem Intact.leaveParty (h : s.Intact) (ref : PartyRef) (p : PlayerId) :
    (s.leaveParty ref p).Intact ∧
      ((s.player p).party = some ref → ((s.leaveParty ref p).player p).party = none) := by
  unfold Parties.leaveParty
  cases alive : s.party ref with
  | none =>
      refine ⟨h, fun hp => ?_⟩
      obtain ⟨party, other, -⟩ := (h.wired.linked p ref).mp hp
      rw [alive] at other
      cases other
  | some party =>
      have has := h.wired.has_iff alive p
      dsimp only
      by_cases outside : (s.player p).party ≠ some ref ∧ party.leader ≠ p
      · rw [if_pos outside]
        exact ⟨h, fun hp => absurd hp outside.1⟩
      · have inside : party.Has p := by
          rw [not_and_or, not_not, not_not] at outside
          exact outside.elim has.mp .inl
        rw [if_neg outside]
        by_cases leader : party.leader = p
        · cases missing : missingLeader party p with
          | true =>
              rw [passOn_same (.inr missing)]
              obtain ⟨intact, out⟩ := h.leave_last alive leader
              exact ⟨intact, fun _ => out⟩
          | false =>
              cases list : party.memberList with
              | nil => simp [missingLeader, leader, list] at missing
              | cons front rest =>
                  have on : s.passOn ref party p = s.passPartyLeadership ref front := by
                    simp [passOn, list, leader, missing]
                  rw [on]
                  obtain ⟨intact, out⟩ := h.leave_passing alive leader list
                  exact ⟨intact, fun _ => out⟩
        · have stays : missingLeader party p = false := by simp [missingLeader, leader]
          rw [passOn_same (.inl leader), stays]
          obtain ⟨intact, out⟩ := intact_removeMember h.wired h.absent
            (fun r pt _ => h.populated r pt) alive (inside.resolve_left leader)
          exact ⟨intact, fun _ => out⟩

/-! ### Withdrawing an invitation -/

/-- What is written when a player is no longer invited. -/
structure Uninvited (s s' : Parties) (ref : PartyRef) (p : PlayerId) (old : Party) : Prop where
  party : ∀ r, s'.party r = if r = ref then some { old with inviteList := old.inviteList.erase p }
    else s.party r
  next : s'.next = s.next
  online : s'.online = s.online
  link : ∀ q, (s'.player q).party = (s.player q).party
  others : ∀ q, q ≠ p → (s'.player q).invitePartyList = (s.player q).invitePartyList
  own : ∀ r, r ∈ (s'.player p).invitePartyList ↔ r ≠ ref ∧ r ∈ (s.player p).invitePartyList
  own_nodup : (s'.player p).invitePartyList.Nodup

theorem Uninvited.wired (d : Uninvited s s' ref p party) (h : s.Wired)
    (alive : s.party ref = some party) : s'.Wired := by
  have proper := h.proper alive
  have nodup := proper.invites_nodup
  refine h.rewritten d.party d.next.ge (d.next ▸ h.fresh alive) (fun q r => ?_) (fun q r => ?_)
    (fun q => ?_) ⟨proper.members_nodup, nodup.erase p, proper.leader_apart, ?_⟩
  · rw [d.link]
    have mine := h.has_iff alive q
    simp only [Party.Has] at mine ⊢
    grind
  · have mine := h.invited_iff alive q
    by_cases same : q = p
    · subst same
      rw [d.own]
      grind [List.Nodup.mem_erase_iff]
    · rw [d.others q same]
      grind [List.Nodup.mem_erase_iff]
  · by_cases same : q = p
    · exact same ▸ d.own_nodup
    · rw [d.others q same]
      exact h.invitations_nodup q
  · have was := proper.invites_apart
    grind [List.Nodup.mem_erase_iff]

theorem Uninvited.intact (d : Uninvited s s' ref p party) (h : s.Intact)
    (alive : s.party ref = some party) : (s'.disbandIfEmpty ref false).Intact := by
  refine intact_disbandIfEmpty (d.wired h.wired alive) (fun q offline => ?_)
    fun r pt ne hr => ?_
  · rw [d.online] at offline
    obtain ⟨link, invitations⟩ := h.absent q offline
    refine ⟨(d.link q).trans link, ?_⟩
    by_cases same : q = p
    · subst same
      refine List.eq_nil_iff_forall_not_mem.mpr fun r hr => ?_
      rw [d.own, invitations] at hr
      exact List.not_mem_nil hr.2
    · rw [d.others q same, invitations]
  · rw [d.party, if_neg ne] at hr
    exact h.populated r pt hr

theorem Intact.removeInvite (h : s.Intact) (ref : PartyRef) (p : PlayerId) :
    (s.removeInvite ref p).Intact := by
  unfold Parties.removeInvite
  cases alive : s.party ref with
  | none => exact h
  | some party =>
      simp only [if_true]
      split
      · refine Uninvited.intact (p := p) ⟨fun r => write_party _ _ _ _, rfl, rfl, fun q => ?_,
          fun q ne => ?_, fun r => ?_, ?_⟩ h alive
        · rw [removePartyInvitation, setPlayer_player, write_player]
          split_ifs with same
          · rw [same]
          · rfl
        · rw [removePartyInvitation, setPlayer_player, if_neg ne, write_player]
        · rw [removePartyInvitation, setPlayer_player, if_pos rfl, write_player]
          simp [and_comm]
        · rw [removePartyInvitation, setPlayer_player, if_pos rfl, write_player]
          exact (h.wired.invitations_nodup p).filter _
      · exact h

/-! ### Clearing the invitations of a player -/

/-- The list of a player's invitations while they are withdrawn one by one. -/
def withInvitations (s : Parties) (p : PlayerId) (l : List PartyRef) : Parties :=
  s.setPlayer p { s.player p with invitePartyList := l }

theorem withInvitations_player (s : Parties) (p q : PlayerId) (l : List PartyRef) :
    (s.withInvitations p l).player q =
      if q = p then { s.player p with invitePartyList := l } else s.player q :=
  s.setPlayer_player p q _

theorem disband_empty (alive : s.party ref = some party) (empty : party.empty = true) :
    s.disband ref = (s.setParty party.leader none).write ref none := by
  simp only [Party.empty, Bool.and_eq_true, List.isEmpty_iff] at empty
  unfold disband
  rw [alive]
  simp only [empty.1, empty.2, List.foldl_nil]

/-- Disbanding an empty party does not read the invitations of players. -/
theorem disbandIfEmpty_withInvitations (s : Parties) (ref : PartyRef) (p : PlayerId)
    (l : List PartyRef) :
    (s.disbandIfEmpty ref false).withInvitations p l =
      (s.withInvitations p l).disbandIfEmpty ref false := by
  unfold disbandIfEmpty
  have same : (s.withInvitations p l).party = s.party := rfl
  rw [same]
  cases alive : s.party ref with
  | none => rfl
  | some party =>
      dsimp only
      cases empty : party.empty with
      | true =>
          simp only [Bool.or_true, if_true]
          rw [disband_empty alive empty, disband_empty (s := s.withInvitations p l) alive empty]
          apply Parties.ext
          · rfl
          · funext q
            rw [withInvitations_player, write_player, write_player, setParty_player,
              setParty_player, setParty_player, withInvitations_player, withInvitations_player]
            grind
          · rfl
          · rfl
      | false => rfl

theorem withInvitations_self (s : Parties) (p : PlayerId) :
    s.withInvitations p (s.player p).invitePartyList = s := by
  apply Parties.ext
  · rfl
  · funext q
    rw [withInvitations_player]
    split_ifs with same
    · rw [same]
    · rfl
  · rfl
  · rfl

/-- One invitation is withdrawn, and the player's list read on from the next one. -/
theorem intact_withdraw {l : List PartyRef}
    (h : (s.withInvitations p (ref :: l)).Intact) :
    ((s.removeInvite ref p false).withInvitations p l).Intact := by
  have own : ((s.withInvitations p (ref :: l)).player p).invitePartyList = ref :: l := by
    rw [withInvitations_player, if_pos rfl]
  obtain ⟨party, alive, invited⟩ := (h.wired.invited p ref).mp (by simp [own])
  have nodup := h.wired.invitations_nodup p
  rw [own, List.nodup_cons] at nodup
  have alive' : s.party ref = some party := alive
  unfold removeInvite
  rw [alive']
  simp only [invited, if_true, Bool.false_eq_true, if_false]
  rw [disbandIfEmpty_withInvitations]
  refine Uninvited.intact (s := s.withInvitations p (ref :: l)) (p := p) ⟨fun r => write_party _ _ _ _, rfl, rfl, fun q => ?_,
    fun q ne => ?_, fun r => ?_, ?_⟩ h alive
  · rw [withInvitations_player, withInvitations_player, write_player]
    split_ifs <;> rfl
  · rw [withInvitations_player, withInvitations_player, write_player, if_neg ne, if_neg ne]
  · rw [own, withInvitations_player, if_pos rfl]
    grind
  · rw [withInvitations_player, if_pos rfl]
    exact nodup.2

theorem Intact.clearPartyInvitations (h : s.Intact) (p : PlayerId) :
    (s.clearPartyInvitations p).Intact ∧
      ((s.clearPartyInvitations p).player p).invitePartyList = [] := by
  have all : ∀ (l : List PartyRef) (t : Parties), (t.withInvitations p l).Intact →
      ((l.foldl (fun s ref => s.removeInvite ref p false) t).withInvitations p []).Intact := by
    intro l
    induction l with
    | nil => exact fun t ht => ht
    | cons ref l ih => exact fun t ht => ih _ (intact_withdraw ht)
  refine ⟨all _ s (by rwa [withInvitations_self]), ?_⟩
  unfold Parties.clearPartyInvitations
  simp

/-! ### All events -/

theorem leads_some (hp : s.leads p = some ref) :
    (s.player p).party = some ref ∧ ∃ party, s.party ref = some party ∧ party.leader = p := by
  unfold leads at hp
  obtain ⟨linked, leader⟩ := Option.filter_eq_some_iff.mp hp
  refine ⟨linked, ?_⟩
  cases alive : s.party ref with
  | none => simp [alive] at leader
  | some party => exact ⟨party, rfl, by simpa [alive] using leader⟩

/-- An invitation of a player without a party, by one who is online and another one. -/
theorem Intact.invitePlayer (hw : s.Wired) (ha : s.Absent)
    (hp : ∀ r pt, r ≠ ref → s.party r = some pt → pt.memberList ≠ [] ∨ pt.inviteList ≠ [])
    (alive : s.party ref = some party) (online : s.online p = true)
    (free : (s.player p).party = none) : (s.invitePlayer ref p).Intact := by
  by_cases known : p ∈ party.inviteList
  · have same : s.invitePlayer ref p = s := by
      unfold Parties.invitePlayer
      rw [alive]
      simp [known]
    rw [same]
    refine ⟨hw, fun r pt hr => ?_, ha⟩
    by_cases here : r = ref
    · subst here
      obtain rfl := Option.some.inj (alive.symm.trans hr)
      exact .inr (List.ne_nil_of_mem known)
    · exact hp r pt here hr
  · have d := invitePlayer_invited alive known
    refine ⟨d.wired hw alive known (by simp [free]), fun r pt hr => ?_, fun q offline => ?_⟩
    · rw [d.party] at hr
      split_ifs at hr with here
      · obtain rfl := Option.some.inj hr
        simp
      · exact hp r pt here hr
    · rw [d.online] at offline
      have ne : q ≠ p := by
        rintro rfl
        rw [online] at offline
        cases offline
      rw [d.link, d.invitations, if_neg (fun h => ne h.1)]
      exact ha q offline

/-- A player without a party invites himself. -/
def invitesHimself (s : Parties) : Event → Bool
  | .invite p invited => p == invited && s.online p && (s.player p).party.isNone
  | _ => false

theorem Intact.playerInviteToParty (h : s.Intact) {invited : PlayerId}
    (other : s.invitesHimself (.invite p invited) = false) :
    (s.playerInviteToParty p invited).Intact := by
  unfold Parties.playerInviteToParty
  split
  · exact h
  · next asked =>
      simp only [Bool.or_eq_true, Bool.not_eq_true', not_or, Bool.not_eq_false] at asked
      split
      · exact h
      · next free =>
          replace free : (s.player invited).party = none := by simpa using free
          split
          · next own =>
              have ne : invited ≠ p := by
                rintro rfl
                simp [invitesHimself, asked.1.1, own] at other
              refine Intact.invitePlayer (h.wired.newParty own) (fun q offline => ?_)
                (fun r pt ne hr => ?_) (?_ : _ = some { leader := p }) asked.1.2 ?_
              · have absent : (s.player q).party = none ∧ (s.player q).invitePartyList = [] :=
                  h.absent q offline
                have ne : q ≠ p := by
                  rintro rfl
                  have same : (s.newParty q).online = s.online := rfl
                  rw [same, asked.1.1] at offline
                  cases offline
                rwa [newParty_player, if_neg ne]
              · rw [newParty_party, if_neg ne] at hr
                exact h.populated r pt hr
              · rw [newParty_party, if_pos rfl]
              · rwa [newParty_player, if_neg ne]
          · next ref own =>
              split
              · next leading =>
                  obtain ⟨-, party, alive, -⟩ := leads_some leading
                  exact Intact.invitePlayer h.wired h.absent (fun r pt _ => h.populated r pt)
                    alive asked.1.2 free
              · exact h

theorem Intact.playerJoinParty (h : s.Intact) (p leader : PlayerId) :
    (s.playerJoinParty p leader).Intact := by
  unfold Parties.playerJoinParty
  split
  · exact h
  · next asked =>
      simp only [Bool.or_eq_true, Bool.not_eq_true', not_or, Bool.not_eq_false] at asked
      split
      · exact h
      · next ref leading =>
          split
          · exact h
          · next free =>
              replace free : (s.player p).party = none := by simpa using free
              obtain ⟨linked, party, alive, -⟩ := leads_some leading
              have invited : p ∈ party.inviteList := by
                have inviting := asked.2
                simp only [isInviting, linked, Option.bind_some, alive, Bool.and_eq_true,
                  Party.isPlayerInvited, decide_eq_true_eq] at inviting
                exact inviting.2
              have d := joinParty_joined alive invited
              refine ⟨d.wired h.wired alive invited free, fun r pt hr => ?_, fun q offline => ?_⟩
              · rw [d.party] at hr
                split_ifs at hr
                · obtain rfl := Option.some.inj hr
                  simp
                · exact h.populated r pt hr
              · rw [d.online] at offline
                have ne : q ≠ p := by
                  rintro rfl
                  exact absurd asked.1.1 (by simpa using offline)
                rw [d.link, d.invitations, if_neg ne, if_neg ne]
                exact h.absent q offline

theorem Intact.passPartyLeadership (h : s.Intact) (ref : PartyRef) (p : PlayerId) :
    (s.passPartyLeadership ref p).Intact := by
  refine ⟨h.wired.passPartyLeadership ref p, ?_, ?_⟩
  · unfold Parties.passPartyLeadership
    split
    · exact h.populated
    · next party alive =>
        split
        · exact h.populated
        · intro r pt hr
          rw [write_party] at hr
          split_ifs at hr
          · obtain rfl := Option.some.inj hr
            simp
          · exact h.populated r pt hr
  · unfold Parties.passPartyLeadership
    split
    · exact h.absent
    · split
      · exact h.absent
      · exact h.absent

/-- Leaving gives no one an invitation. -/
theorem disbandIfEmpty_invitations (missing : Bool) (hp : (s.player p).invitePartyList = []) :
    ((s.disbandIfEmpty ref missing).player p).invitePartyList = [] := by
  unfold disbandIfEmpty
  cases alive : s.party ref with
  | none => exact hp
  | some party =>
      simp only
      split
      · rw [(disband_disbanded alive).invitations, hp]
        simp
      · exact hp

theorem passOn_player (s : Parties) (ref : PartyRef) (party : Party) (p : PlayerId) :
    (s.passOn ref party p).player = s.player := by
  have pass : ∀ q, (s.passPartyLeadership ref q).player = s.player := by
    intro q
    unfold Parties.passPartyLeadership
    (repeat' split) <;> rfl
  unfold passOn
  (repeat' split) <;> first | rfl | exact pass _

theorem removeMember_invitations (s : Parties) (ref : PartyRef) (p q : PlayerId) :
    ((s.removeMember ref p).player q).invitePartyList = (s.player q).invitePartyList := by
  cases alive : s.party ref with
  | none =>
      unfold removeMember
      rw [alive]
  | some party => exact (removeMember_removed alive p).invitations q

theorem leaveParty_invitations (hp : (s.player q).invitePartyList = []) :
    ((s.leaveParty ref p).player q).invitePartyList = [] := by
  unfold Parties.leaveParty
  split
  · exact hp
  · split
    · exact hp
    · refine disbandIfEmpty_invitations _ ?_
      rw [removeMember_invitations, passOn_player, hp]

theorem Intact.leaveOwnParty (h : s.Intact) (p : PlayerId)
    (hp : (s.player p).invitePartyList = []) :
    (s.leaveOwnParty p).Intact ∧ ((s.leaveOwnParty p).player p).party = none ∧
      ((s.leaveOwnParty p).player p).invitePartyList = [] := by
  unfold Parties.leaveOwnParty
  cases own : (s.player p).party with
  | none => exact ⟨h, own, hp⟩
  | some ref =>
      obtain ⟨intact, out⟩ := h.leaveParty ref p
      exact ⟨intact, out own, leaveParty_invitations hp⟩

/-- A player who is removed has lost all links. -/
theorem Intact.onRemoveCreature (h : s.Intact) (p : PlayerId) :
    (s.onRemoveCreature p).Intact := by
  obtain ⟨cleared, none_⟩ := h.clearPartyInvitations p
  obtain ⟨left, link, invitations⟩ := cleared.leaveOwnParty p none_
  unfold Parties.onRemoveCreature
  generalize (s.clearPartyInvitations p).leaveOwnParty p = t at left link invitations
  refine ⟨⟨left.wired.linked, left.wired.invited, left.wired.invitations_nodup,
    left.wired.proper, left.wired.fresh⟩, left.populated, fun q offline => ?_⟩
  by_cases here : q = p
  · subst here
    exact ⟨link, invitations⟩
  · refine left.absent q ?_
    simpa [setOffline, here] using offline

/-- Who logs in had no links before. -/
theorem Intact.login (h : s.Intact) (p : PlayerId) : (s.step (.login p)).Intact := by
  simp only [Parties.step]
  split
  · exact h
  · next offline =>
      have absent := h.absent p (by simpa using offline)
      have same : s.setPlayer p {} = s := by
        apply Parties.ext
        · rfl
        · funext q
          rw [setPlayer_player]
          split_ifs with here
          · rw [here]
            exact (PartyLinks.ext absent.1 absent.2).symm
          · rfl
        · rfl
        · rfl
      rw [same]
      refine ⟨⟨h.wired.linked, h.wired.invited, h.wired.invitations_nodup, h.wired.proper,
        h.wired.fresh⟩, h.populated, fun q later => h.absent q ?_⟩
      by_cases here : q = p
      · simp [here] at later
      · simpa [here] using later

theorem Intact.step (h : s.Intact) (e : Event) (other : s.invitesHimself e = false) :
    (s.step e).Intact := by
  cases e with
  | login p => exact h.login p
  | invite p invited => exact h.playerInviteToParty other
  | join p leader => exact h.playerJoinParty p leader
  | revoke p invited =>
      simp only [Parties.step, playerRevokePartyInvitation]
      (repeat' split) <;> first | exact h | exact h.removeInvite _ _
  | passLeadership p newLeader =>
      simp only [Parties.step, playerPassPartyLeadership]
      (repeat' split) <;> first | exact h | exact h.passPartyLeadership _ _
  | leave p inFight =>
      simp only [Parties.step, playerLeaveParty]
      (repeat' split) <;> first | exact h | exact (h.leaveParty _ _).1
  | disband ref => exact h.disband ref
  | remove p =>
      simp only [Parties.step]
      split
      · exact h.onRemoveCreature p
      · exact h

/-! ### Runs -/

/-- No one is online and there are no parties. -/
def init : Parties where
  online _ := false
  player _ := {}
  party _ := none
  next := 0

/-- The states that events lead to, where no player without a party invites himself. -/
inductive Run : Parties → Prop
  | init : Run init
  | step {s : Parties} (run : Run s) (e : Event) (other : s.invitesHimself e = false) :
      Run (s.step e)

theorem intact_init : init.Intact where
  wired := ⟨by simp [init], by simp [init], by simp [init], by simp [init], by simp [init]⟩
  populated := by simp [Populated, init]
  absent := by simp [Absent, init]

/-- In every state of such a run the links of players and parties agree, no list
has anyone twice, no one is in a party and invited to it, and every party that is
left has members or invited players. -/
theorem Run.links_agree (run : Run s) :
    (∀ p r, (s.player p).party = some r ↔
      ∃ party, s.party r = some party ∧ (party.leader = p ∨ p ∈ party.memberList)) ∧
    (∀ p r, r ∈ (s.player p).invitePartyList ↔
      ∃ party, s.party r = some party ∧ p ∈ party.inviteList) ∧
    (∀ p, (s.player p).invitePartyList.Nodup) ∧
    ∀ r party, s.party r = some party →
      party.memberList.Nodup ∧ party.inviteList.Nodup ∧ party.leader ∉ party.memberList ∧
      (∀ p ∈ party.inviteList, party.leader ≠ p ∧ p ∉ party.memberList) ∧
      (party.memberList ≠ [] ∨ party.inviteList ≠ []) := by
  have h : s.Intact := by
    induction run with
    | init => exact intact_init
    | step run e other ih => exact ih.step e other
  refine ⟨h.wired.linked, h.wired.invited, h.wired.invitations_nodup, fun r party alive => ?_⟩
  have proper := h.wired.proper alive
  exact ⟨proper.members_nodup, proper.invites_nodup, proper.leader_apart, proper.invites_apart,
    h.populated r party alive⟩

/-! ### A party of one

A player without a party invites himself: the party is founded after he was
asked whether he is in one. -/

def alone : Parties := init.step (.login 0)

/-- He leads the party, and is invited to it. -/
theorem alone_invited :
    ∃ party, (alone.step (.invite 0 0)).party 0 = some party ∧ party.leader = 0 ∧
      0 ∈ party.inviteList ∧ ((alone.step (.invite 0 0)).player 0).party = some 0 :=
  ⟨{ leader := 0, inviteList := [0] }, by decide⟩

def pair : Parties := (alone.step (.login 1)).step (.invite 0 1)

theorem pair_run : Run pair :=
  ((Run.init.step (.login 0) (by decide)).step (.login 1) (by decide)).step (.invite 0 1)
    (by decide)

theorem pair_links_agree :
    (∀ p r, (pair.player p).party = some r ↔
      ∃ party, pair.party r = some party ∧ (party.leader = p ∨ p ∈ party.memberList)) ∧
    (∀ p r, r ∈ (pair.player p).invitePartyList ↔
      ∃ party, pair.party r = some party ∧ p ∈ party.inviteList) ∧
    (∀ p, (pair.player p).invitePartyList.Nodup) ∧
    ∀ r party, pair.party r = some party →
      party.memberList.Nodup ∧ party.inviteList.Nodup ∧ party.leader ∉ party.memberList ∧
      (∀ p ∈ party.inviteList, party.leader ≠ p ∧ p ∉ party.memberList) ∧
      (party.memberList ≠ [] ∨ party.inviteList ≠ []) :=
  Run.links_agree pair_run

end Parties

end TibServer
