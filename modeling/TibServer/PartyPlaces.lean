import Mathlib.Tactic
import TibServer.Membership

/-!
Who keeps his place in a party when something happens to parties. Here a player may have invited
himself: all that is kept is that a player who is linked to a party is in it.
-/

namespace TibServer.Parties

variable {s s' s'' : Parties} {p q : PlayerId} {ref r : PartyRef} {party new : Party}
variable {lost lost' : PartyRef → PlayerId → Prop}

/-- The leader goes alone, or with the only member there is. -/
def breaksUp (party : Party) (p : PlayerId) : Prop :=
  (party.leader = p ∧ party.memberList = []) ∨
    (party.memberList.length = 1 ∧ party.inviteList = [])

/-- A link to a party is not left over. -/
structure Held (s : Parties) : Prop where
  has : ∀ {p r}, (s.player p).party = some r → ∃ party, s.party r = some party ∧ party.Has p
  fresh : ∀ {r party}, s.party r = some party → r < s.next

/-! ### Who keeps his place

A step keeps everyone in his party but the ones that are lost. -/

structure Stays (lost : PartyRef → PlayerId → Prop) (s s' : Parties) : Prop where
  has : ∀ {r party q}, s.party r = some party → party.Has q →
    lost r q ∨ ∃ new, s'.party r = some new ∧ new.Has q
  alive : ∀ {r new}, s'.party r = some new → ∃ party, s.party r = some party
  held : s.Held → s'.Held
  online : s'.online = s.online

theorem Stays.refl (s : Parties) : Stays lost s s :=
  ⟨fun alive has => .inr ⟨_, alive, has⟩, fun alive => ⟨_, alive⟩, id, rfl⟩

theorem Stays.trans (h : Stays lost s s') (h' : Stays lost s' s'') : Stays lost s s'' := by
  refine ⟨fun alive has => ?_, fun alive => ?_, fun held => h'.held (h.held held),
    h'.online.trans h.online⟩
  · rcases h.has alive has with gone | ⟨new, alive', has'⟩
    · exact .inl gone
    · exact h'.has alive' has'
  · obtain ⟨party, alive'⟩ := h'.alive alive
    exact h.alive alive'

theorem Stays.mono (h : Stays lost s s')
    (imp : ∀ r party q, s.party r = some party → party.Has q → lost r q → lost' r q) :
    Stays lost' s s' :=
  ⟨fun alive has => (h.has alive has).imp_left (imp _ _ _ alive has), h.alive, h.held, h.online⟩

/-- One party is written, and the links go with it. -/
theorem Stays.written (alive : s.party ref = some party)
    (written : ∀ r, s'.party r = if r = ref then some new else s.party r)
    (next : s'.next = s.next) (online : s'.online = s.online)
    (keeps : ∀ q, party.Has q → lost ref q ∨ new.Has q)
    (link : s.Held → ∀ q r, (s'.player q).party = some r →
      (r = ref ∧ new.Has q) ∨ (r ≠ ref ∧ (s.player q).party = some r)) : Stays lost s s' := by
  refine ⟨fun {r pt q} alive' has => ?_, fun {r pt} alive' => ?_, fun held => ⟨fun {q r} linked => ?_,
    fun {r pt} alive' => ?_⟩, online⟩
  · rw [written]
    split_ifs with same
    · subst same
      obtain rfl := Option.some.inj (alive.symm.trans alive')
      exact (keeps q has).imp_right fun has => ⟨new, rfl, has⟩
    · exact .inr ⟨pt, alive', has⟩
  · rw [written] at alive'
    split_ifs at alive' with same
    · exact ⟨party, same ▸ alive⟩
    · exact ⟨pt, alive'⟩
  · rw [written]
    rcases link held q r linked with ⟨same, has⟩ | ⟨other, linked'⟩
    · exact ⟨new, if_pos same, has⟩
    · rw [if_neg other]
      exact held.has linked'
  · rw [written] at alive'
    rw [next]
    split_ifs at alive' with same
    · exact same ▸ held.fresh alive
    · exact held.fresh alive'

/-- The links are left as they are. -/
theorem Stays.rewritten (alive : s.party ref = some party)
    (written : ∀ r, s'.party r = if r = ref then some new else s.party r)
    (next : s'.next = s.next) (online : s'.online = s.online)
    (keeps : ∀ q, party.Has q → new.Has q)
    (link : ∀ q, (s'.player q).party = (s.player q).party) : Stays lost s s' := by
  refine .written alive written next online (fun q has => .inr (keeps q has)) fun held q r linked => ?_
  rw [link] at linked
  by_cases same : r = ref
  · subst same
    obtain ⟨pt, alive', has⟩ := held.has linked
    obtain rfl := Option.some.inj (alive.symm.trans alive')
    exact .inl ⟨rfl, keeps q has⟩
  · exact .inr ⟨same, linked⟩

theorem Disbanded.stays (d : Disbanded s s' ref party) (alive : s.party ref = some party) :
    Stays (fun r _ => r = ref) s s' := by
  refine ⟨fun {r pt q} alive' has => ?_, fun {r pt} alive' => ?_, fun held => ⟨fun {q r} linked => ?_,
    fun {r pt} alive' => ?_⟩, d.online⟩
  · rw [d.party]
    split_ifs with same
    · exact .inl same
    · exact .inr ⟨pt, alive', has⟩
  · rw [d.party] at alive'
    split_ifs at alive'
    exact ⟨pt, alive'⟩
  · rw [d.link] at linked
    split_ifs at linked with inside
    obtain ⟨pt, alive', has⟩ := held.has linked
    have other : r ≠ ref := by
      rintro rfl
      obtain rfl := Option.some.inj (alive.symm.trans alive')
      exact inside (has.imp Eq.symm id)
    exact ⟨pt, by rw [d.party, if_neg other, alive'], has⟩
  · rw [d.party] at alive'
    split_ifs at alive'
    exact d.next ▸ held.fresh alive'

theorem disband_stays (s : Parties) (ref : PartyRef) :
    Stays (fun r _ => r = ref) s (s.disband ref) := by
  cases alive : s.party ref with
  | none =>
      unfold disband
      rw [alive]
      exact .refl s
  | some party => exact (disband_disbanded alive).stays alive

theorem disbandIfEmpty_stays (s : Parties) (ref : PartyRef) (missing : Bool) :
    Stays (fun r _ => r = ref ∧ ∃ party, s.party ref = some party ∧
      (missing = true ∨ (party.memberList = [] ∧ party.inviteList = []))) s
      (s.disbandIfEmpty ref missing) := by
  unfold disbandIfEmpty
  cases alive : s.party ref with
  | none => exact .refl s
  | some party =>
      dsimp only
      split_ifs with ends
      · refine (s.disband_stays ref).mono fun r _ _ _ _ same => ⟨same, party, rfl, ?_⟩
        simpa [Party.empty] using ends
      · exact .refl s

/-! ### Leaving -/

theorem passPartyLeadership_stays (s : Parties) (ref : PartyRef) (p : PlayerId) :
    Stays lost s (s.passPartyLeadership ref p) := by
  cases alive : s.party ref with
  | none =>
      unfold passPartyLeadership
      rw [alive]
      exact .refl s
  | some party =>
      by_cases same : party.leader = p ∨ (s.player p).party ≠ some ref
      · unfold passPartyLeadership
        rw [alive]
        simp only [same, if_true]
        exact .refl s
      · obtain ⟨ne, linked⟩ := not_or.mp same
        rw [passPartyLeadership_party alive ne (not_not.mp linked)]
        refine .rewritten alive (write_party _ _ · _) rfl rfl (fun q has => ?_) fun q => rfl
        -- the old leader is a member now, and the new one was
        rcases has with leader | member
        · exact .inr (by simp [leader])
        · by_cases here : q = p
          · exact .inl here.symm
          · exact .inr (List.mem_cons_of_mem _ ((List.mem_erase_of_ne here).mpr member))

theorem passOn_stays (s : Parties) (ref : PartyRef) (party : Party) (p : PlayerId) :
    Stays lost s (s.passOn ref party p) := by
  unfold passOn
  (repeat' split) <;> first | exact .refl s | exact s.passPartyLeadership_stays _ _

/-- Where a party has no one left when its leader or a member has gone. -/
theorem passOn_breaksUp (alive : s.party ref = some party) (has : party.Has p)
    (alive' : (s.passOn ref party p).party ref = some new) (members : new.memberList.erase p = [])
    (invites : new.inviteList = []) : breaksUp party p := by
  have unpassed : new = party → breaksUp party p := by
    rintro rfl
    rcases has with leader | member
    · cases list : new.memberList with
      | nil => exact .inl ⟨leader, list⟩
      | cons front rest =>
          refine .inr ⟨?_, invites⟩
          by_cases here : p ∈ new.memberList
          · have short := List.length_erase_add_one here
            rw [members] at short
            exact short.symm
          · rw [List.erase_of_not_mem here, list] at members
            cases members
    · refine .inr ⟨?_, invites⟩
      have short := List.length_erase_add_one member
      rw [members] at short
      exact short.symm
  unfold passOn at alive'
  split at alive'
  · next front rest list =>
      split_ifs at alive' with passes
      · cases taken : decide (party.leader = front ∨ (s.player front).party ≠ some ref) with
        | true =>
            unfold passPartyLeadership at alive'
            rw [alive] at alive'
            simp only [of_decide_eq_true taken, if_true] at alive'
            exact unpassed (Option.some.inj (alive'.symm.trans alive))
        | false =>
            obtain ⟨ne, linked⟩ := not_or.mp (of_decide_eq_false taken)
            rw [passPartyLeadership_party alive ne (not_not.mp linked), write_party, if_pos rfl] at alive'
            obtain rfl := Option.some.inj alive'
            refine .inr ⟨?_, invites⟩
            have rest_nil : rest = [] := by
              simpa [list, passes.1] using members
            rw [list, rest_nil]
            rfl
      · exact unpassed (Option.some.inj (alive'.symm.trans alive))
  · exact unpassed (Option.some.inj (alive'.symm.trans alive))

theorem removeMember_stays (s : Parties) (ref : PartyRef) (p : PlayerId) :
    Stays (fun r q => r = ref ∧ q = p) s (s.removeMember ref p) := by
  cases alive : s.party ref with
  | none =>
      unfold removeMember
      rw [alive]
      exact .refl s
  | some party =>
      have d := removeMember_removed alive p
      have keeps : ∀ q, q ≠ p → party.Has q →
          Party.Has { party with memberList := party.memberList.erase p } q :=
        fun q other has => has.imp_right (List.mem_erase_of_ne other).mpr
      refine .written alive d.party d.next d.online (fun q has => ?_) fun held q r linked => ?_
      · by_cases here : q = p
        · exact .inl ⟨rfl, here⟩
        · exact .inr (keeps q here has)
      · rw [d.link] at linked
        split_ifs at linked with here
        by_cases same : r = ref
        · subst same
          obtain ⟨pt, alive', has⟩ := held.has linked
          obtain rfl := Option.some.inj (alive.symm.trans alive')
          exact .inl ⟨rfl, keeps q here has⟩
        · exact .inr ⟨same, linked⟩

theorem leaveParty_stays (held : s.Held) (linked : (s.player p).party = some ref) :
    Stays (fun r q => r = ref ∧
      (q = p ∨ ∃ party, s.party ref = some party ∧ breaksUp party p)) s (s.leaveParty ref p) := by
  obtain ⟨party, alive, has⟩ := held.has linked
  unfold leaveParty
  rw [alive]
  simp only [linked, ne_eq, not_true_eq_false, false_and, if_false]
  refine (s.passOn_stays ref party p).trans (Stays.trans ((removeMember_stays _ ref p).mono
    fun r _ q _ _ gone => ⟨gone.1, .inl gone.2⟩) ?_)
  refine (disbandIfEmpty_stays _ ref _).mono fun r _ q _ _ gone => ⟨gone.1, .inr ⟨party, rfl, ?_⟩⟩
  obtain ⟨-, last, alive', ends⟩ := gone
  cases on : (s.passOn ref party p).party ref with
  | none =>
      unfold removeMember at alive'
      rw [on] at alive'
      cases on.symm.trans alive'
  | some mid =>
      rw [(removeMember_removed on p).party, if_pos rfl] at alive'
      obtain rfl := Option.some.inj alive'
      rcases ends with missing | ⟨members, invites⟩
      · simp only [missingLeader, Bool.and_eq_true, beq_iff_eq, Bool.or_eq_true,
          List.isEmpty_iff] at missing
        obtain ⟨leader, alone | pair⟩ := missing
        · exact .inl ⟨leader, alone⟩
        · exact .inr pair
      · exact passOn_breaksUp alive has on members invites

/-! ### Withdrawing invitations -/

/-- Only invitations of one player are taken out, and parties that are empty then. -/
structure Thinned (p : PlayerId) (s s' : Parties) : Prop where
  party : ∀ {r new}, s'.party r = some new → ∃ party, s.party r = some party ∧
    new.leader = party.leader ∧ new.memberList = party.memberList ∧
    ∀ i ∈ party.inviteList, i ≠ p → i ∈ new.inviteList
  link : ∀ {q r}, (s'.player q).party = some r → (s.player q).party = some r

theorem Thinned.refl (s : Parties) : Thinned p s s :=
  ⟨fun alive => ⟨_, alive, rfl, rfl, fun _ h _ => h⟩, id⟩

theorem Thinned.trans (h : Thinned p s s') (h' : Thinned p s' s'') : Thinned p s s'' := by
  refine ⟨fun alive => ?_, fun linked => h.link (h'.link linked)⟩
  obtain ⟨mid, alive', leader', members', invites'⟩ := h'.party alive
  obtain ⟨party, alive, leader, members, invites⟩ := h.party alive'
  exact ⟨party, alive, leader'.trans leader, members'.trans members,
    fun i hi other => invites' i (invites i hi other) other⟩

theorem disbandIfEmpty_thinned (s : Parties) (ref : PartyRef) :
    Thinned p s (s.disbandIfEmpty ref false) := by
  unfold disbandIfEmpty
  cases alive : s.party ref with
  | none => exact .refl s
  | some party =>
      dsimp only
      split_ifs
      · have d := disband_disbanded alive
        refine ⟨fun {r new} alive' => ?_, fun {q r} linked => ?_⟩
        · rw [d.party] at alive'
          split_ifs at alive'
          exact ⟨new, alive', rfl, rfl, fun _ h _ => h⟩
        · rw [d.link] at linked
          split_ifs at linked
          exact linked
      · exact .refl s

/-- The party without the invitation, before it is disbanded if it is empty. -/
def uninvite (s : Parties) (ref : PartyRef) (p : PlayerId) (party : Party)
    (removeFromPlayer : Bool) : Parties :=
  let s := s.write ref (some { party with inviteList := party.inviteList.erase p })
  if removeFromPlayer then s.removePartyInvitation p ref else s

theorem uninvite_party (s : Parties) (ref : PartyRef) (p : PlayerId) (party : Party) (b : Bool)
    (r : PartyRef) : (s.uninvite ref p party b).party r =
      if r = ref then some { party with inviteList := party.inviteList.erase p }
      else s.party r := by
  unfold uninvite
  cases b
  · exact write_party _ _ _ _
  · exact write_party _ _ _ _

theorem uninvite_link (s : Parties) (ref : PartyRef) (p q : PlayerId) (party : Party) (b : Bool) :
    ((s.uninvite ref p party b).player q).party = (s.player q).party := by
  unfold uninvite
  cases b
  · rfl
  · simp only [if_true, removePartyInvitation, setPlayer_player, write_player]
    split_ifs with same
    · rw [same]
    · rfl

theorem uninvite_rest (s : Parties) (ref : PartyRef) (p : PlayerId) (party : Party) (b : Bool) :
    (s.uninvite ref p party b).next = s.next ∧ (s.uninvite ref p party b).online = s.online := by
  unfold uninvite
  cases b
  · exact ⟨rfl, rfl⟩
  · exact ⟨rfl, rfl⟩

theorem uninvite_thinned (alive : s.party ref = some party) (b : Bool) :
    Thinned p s (s.uninvite ref p party b) := by
  refine ⟨fun {r new} alive' => ?_, fun {q r} linked => by rwa [uninvite_link] at linked⟩
  rw [uninvite_party] at alive'
  split_ifs at alive' with same
  · subst same
    obtain rfl := Option.some.inj alive'
    exact ⟨party, alive, rfl, rfl, fun i hi other => (List.mem_erase_of_ne other).mpr hi⟩
  · exact ⟨new, alive', rfl, rfl, fun _ h _ => h⟩

theorem removeInvite_eq (alive : s.party ref = some party) (invited : p ∈ party.inviteList)
    (b : Bool) : s.removeInvite ref p b = (s.uninvite ref p party b).disbandIfEmpty ref false := by
  unfold removeInvite uninvite
  rw [alive]
  simp only [invited, if_true]

theorem removeInvite_thinned (s : Parties) (ref : PartyRef) (p : PlayerId) (b : Bool) :
    Thinned p s (s.removeInvite ref p b) := by
  cases alive : s.party ref with
  | none =>
      unfold removeInvite
      rw [alive]
      exact .refl s
  | some party =>
      by_cases invited : p ∈ party.inviteList
      · rw [removeInvite_eq alive invited]
        exact (uninvite_thinned alive b).trans (disbandIfEmpty_thinned _ ref)
      · unfold removeInvite
        rw [alive]
        simp only [invited, if_false]
        exact .refl s

/-- The leader of a party that has invited no one else is lost. -/
theorem removeInvite_stays (s : Parties) (ref : PartyRef) (p : PlayerId) (b : Bool) :
    Stays (fun r _ => r = ref ∧ ∃ party, s.party ref = some party ∧ party.memberList = [] ∧
      party.inviteList.erase p = []) s (s.removeInvite ref p b) := by
  cases alive : s.party ref with
  | none =>
      unfold removeInvite
      rw [alive]
      exact .refl s
  | some party =>
      by_cases invited : p ∈ party.inviteList
      · rw [removeInvite_eq alive invited]
        have rest := s.uninvite_rest ref p party b
        have first : Stays (fun r _ => r = ref ∧ ∃ pt, some party = some pt ∧ pt.memberList = [] ∧
            pt.inviteList.erase p = []) s (s.uninvite ref p party b) :=
          .rewritten alive (s.uninvite_party ref p party b) rest.1 rest.2 (fun q has => has)
            fun q => s.uninvite_link ref p q party b
        refine first.trans ((disbandIfEmpty_stays _ ref false).mono fun r _ q _ _ gone => ?_)
        obtain ⟨same, last, alive', ends⟩ := gone
        rw [uninvite_party, if_pos rfl] at alive'
        obtain rfl := Option.some.inj alive'
        exact ⟨same, party, rfl, ends.resolve_left (by decide)⟩
      · unfold removeInvite
        rw [alive]
        simp only [invited, if_false]
        exact .refl s

/-- All invitations of a player are withdrawn: parties that had invited him alone go. -/
theorem removeInvites (p : PlayerId) (l : List PartyRef) (s : Parties) :
    Stays (fun r _ => r ∈ l ∧ ∃ party, s.party r = some party ∧ party.memberList = [] ∧
      ∀ i ∈ party.inviteList, i = p) s (l.foldl (fun s ref => s.removeInvite ref p false) s) ∧
    Thinned p s (l.foldl (fun s ref => s.removeInvite ref p false) s) := by
  induction l generalizing s with
  | nil => exact ⟨.refl s, .refl s⟩
  | cons ref l ih =>
      obtain ⟨stays, thinned⟩ := ih (s.removeInvite ref p false)
      have first := s.removeInvite_thinned ref p false
      refine ⟨Stays.trans ((s.removeInvite_stays ref p false).mono fun r pt q alive has gone => ?_)
        (stays.mono fun r pt q alive has gone => ?_), first.trans thinned⟩
      · obtain ⟨rfl, party, alive', members, invites⟩ := gone
        refine ⟨List.mem_cons_self, party, alive', members, fun i hi => ?_⟩
        by_contra other
        exact List.not_mem_nil (invites ▸ (List.mem_erase_of_ne other).mpr hi)
      · obtain ⟨later, new, alive', members, invites⟩ := gone
        obtain ⟨party, alive'', -, same, kept⟩ := first.party alive'
        refine ⟨List.mem_cons_of_mem _ later, party, alive'', same ▸ members, fun i hi => ?_⟩
        by_contra other
        exact other (invites i (kept i hi other))

theorem clearPartyInvitations_stays (s : Parties) (p : PlayerId) :
    Stays (fun r _ => r ∈ (s.player p).invitePartyList ∧ ∃ party, s.party r = some party ∧
      party.memberList = [] ∧ ∀ i ∈ party.inviteList, i = p) s (s.clearPartyInvitations p) ∧
    Thinned p s (s.clearPartyInvitations p) := by
  obtain ⟨stays, thinned⟩ := removeInvites p (s.player p).invitePartyList s
  unfold clearPartyInvitations
  generalize (s.player p).invitePartyList.foldl (fun s ref => s.removeInvite ref p false) s = t
    at stays thinned
  have link : ∀ q, ((t.setPlayer p { t.player p with invitePartyList := [] }).player q).party =
      (t.player q).party := by
    intro q
    rw [setPlayer_player]
    split_ifs with same
    · rw [same]
    · rfl
  refine ⟨⟨stays.has, stays.alive, fun held => ⟨fun {q r} linked => ?_, (stays.held held).fresh⟩,
    stays.online⟩, ⟨thinned.party, fun {q r} linked => thinned.link ?_⟩⟩
  · rw [link] at linked
    exact (stays.held held).has linked
  · rwa [link] at linked

/-- A player who is removed goes alone, but for the only other one in his party and the leaders of
parties that had invited him alone. -/
theorem removal_stays (held : s.Held) (p : PlayerId) :
    Stays (fun r q => q = p ∨ ∃ party, s.party r = some party ∧ (∀ i ∈ party.inviteList, i = p) ∧
      (((s.player p).party = some r ∧ party.memberList.length = 1) ∨
        (r ∈ (s.player p).invitePartyList ∧ party.memberList = []))) s
      ((s.clearPartyInvitations p).leaveOwnParty p) := by
  obtain ⟨cleared, thinned⟩ := s.clearPartyInvitations_stays p
  have held' := cleared.held held
  generalize s.clearPartyInvitations p = t at cleared thinned held'
  refine (cleared.mono fun r _ q _ _ gone => ?_).trans ?_
  · obtain ⟨invited, party, alive, members, invites⟩ := gone
    exact .inr ⟨party, alive, invites, .inr ⟨invited, members⟩⟩
  · unfold leaveOwnParty
    cases own : (t.player p).party with
    | none => exact .refl t
    | some ref =>
        refine (leaveParty_stays held' own).mono fun r new q alive has gone => ?_
        obtain ⟨rfl, here | ⟨party', alive', ends⟩⟩ := gone
        · exact .inl here
        · obtain rfl := Option.some.inj (alive.symm.trans alive')
          obtain ⟨party, alive'', -, members, invites⟩ := thinned.party alive
          rcases ends with ⟨leader, alone⟩ | ⟨pair, uninvited⟩
          · -- he leads the party and is alone in it
            refine .inl (has.elim (fun h => h.symm.trans leader) fun h => ?_)
            rw [alone] at h
            exact absurd h List.not_mem_nil
          · refine .inr ⟨party, alive'', fun i hi => ?_, .inl ⟨thinned.link own, members ▸ pair⟩⟩
            by_contra other
            exact List.not_mem_nil (uninvited ▸ invites i hi other)

/-! ### Joining, inviting, passing the leadership -/

theorem joinParty_stays (s : Parties) (ref : PartyRef) (p : PlayerId) :
    Stays lost s (s.joinParty ref p) := by
  cases alive : s.party ref with
  | none =>
      unfold joinParty
      rw [alive]
      exact .refl s
  | some party =>
      by_cases invited : p ∈ party.inviteList
      · have d := joinParty_joined alive invited
        have keeps : ∀ q, party.Has q → Party.Has
            { party with
              inviteList := party.inviteList.erase p
              memberList := party.memberList ++ [p] } q :=
          fun q has => has.imp_right (List.mem_append_left _)
        refine .written alive d.party d.next d.online (fun q has => .inr (keeps q has))
          fun held q r linked => ?_
        rw [d.link] at linked
        split_ifs at linked with here
        · exact .inl ⟨(Option.some.inj linked).symm, .inr (by simp [here])⟩
        · by_cases same : r = ref
          · subst same
            obtain ⟨pt, alive', has⟩ := held.has linked
            obtain rfl := Option.some.inj (alive.symm.trans alive')
            exact .inl ⟨rfl, keeps q has⟩
          · exact .inr ⟨same, linked⟩
      · unfold joinParty
        rw [alive]
        simp only [invited, if_false]
        exact .refl s

theorem playerJoinParty_stays (s : Parties) (p leader : PlayerId) :
    Stays lost s (s.playerJoinParty p leader) := by
  unfold playerJoinParty
  (repeat' split) <;> first | exact .refl s | exact s.joinParty_stays _ _

theorem playerPassPartyLeadership_stays (s : Parties) (p newLeader : PlayerId) :
    Stays lost s (s.playerPassPartyLeadership p newLeader) := by
  unfold playerPassPartyLeadership
  (repeat' split) <;> first | exact .refl s | exact s.passPartyLeadership_stays _ _

theorem invitePlayer_stays (s : Parties) (ref : PartyRef) (p : PlayerId) :
    Stays lost s (s.invitePlayer ref p) := by
  cases alive : s.party ref with
  | none =>
      unfold invitePlayer
      rw [alive]
      exact .refl s
  | some party =>
      by_cases invited : p ∈ party.inviteList
      · unfold invitePlayer
        rw [alive]
        simp only [invited, if_true]
        exact .refl s
      · have d := invitePlayer_invited alive invited
        exact .rewritten alive d.party d.next d.online (fun q has => has) d.link

/-- A party may be founded, everyone else keeps his place. -/
structure Founds (s s' : Parties) : Prop where
  has : ∀ {r party q}, s.party r = some party → party.Has q →
    ∃ new, s'.party r = some new ∧ new.Has q
  alive : ∀ {r new}, s'.party r = some new → r = s.next ∨ ∃ party, s.party r = some party
  held : s.Held → s'.Held
  online : s'.online = s.online

theorem Stays.founds (h : Stays (fun _ _ => False) s s') : Founds s s' :=
  ⟨fun alive has => (h.has alive has).resolve_left id, fun alive => .inr (h.alive alive), h.held,
    h.online⟩

theorem newParty_founds (held : s.Held) (p : PlayerId) : Founds s (s.newParty p) := by
  refine ⟨fun {r party q} alive has => ⟨party, ?_, has⟩, fun {r new} alive => ?_,
    fun held => ⟨fun {q r} linked => ?_, fun {r new} alive => ?_⟩, rfl⟩
  · rw [newParty_party, if_neg (held.fresh alive).ne, alive]
  · rw [newParty_party] at alive
    split_ifs at alive with same
    · exact .inl same
    · exact .inr ⟨new, alive⟩
  · rw [newParty_player] at linked
    rw [newParty_party]
    split_ifs at linked with here
    · exact ⟨{ leader := p }, if_pos (Option.some.inj linked).symm, .inl here.symm⟩
    · obtain ⟨party, alive, has⟩ := held.has linked
      exact ⟨party, by rw [if_neg (held.fresh alive).ne, alive], has⟩
  · rw [newParty_party] at alive
    change r < s.next + 1
    split_ifs at alive with same
    · exact same ▸ Nat.lt_succ_self _
    · exact Nat.lt_succ_of_lt (held.fresh alive)

theorem playerInviteToParty_founds (held : s.Held) (p invited : PlayerId) :
    Founds s (s.playerInviteToParty p invited) := by
  have invites : ∀ ref, Founds s (s.invitePlayer ref invited) :=
    fun ref => (s.invitePlayer_stays ref invited).founds
  have refl : Founds s s := (Stays.refl s).founds
  unfold playerInviteToParty
  split
  · exact refl
  · split
    · exact refl
    · split
      · have first := newParty_founds held p
        have second : Stays (fun _ _ => False) (s.newParty p) _ :=
          (s.newParty p).invitePlayer_stays s.next invited
        refine ⟨fun alive has => ?_, fun alive => ?_, fun held => second.held (first.held held),
          second.online⟩
        · obtain ⟨mid, alive', has'⟩ := first.has alive has
          exact (second.has alive' has').resolve_left id
        · obtain ⟨mid, alive'⟩ := second.alive alive
          exact first.alive alive'
      · split
        · exact invites _
        · exact refl

end TibServer.Parties
