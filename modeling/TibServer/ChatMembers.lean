import TibServer.Chat
import TibServer.PartyPlaces

/-!
Who is a user of the channel of a party or a guild. A channel is found through the party or guild
its user is in, and `disband`, `leaveParty` and `setGuild` take that from him before they close the
channel, or do not close it: no one is taken off. Where those who lose their party or guild have
closed its channel before, its users are its members in every run, also where a new party lies at
the address of a deleted one.
-/

namespace TibServer.Chat

namespace State

variable {ans : Answers} {s s' s'' : State} {p q : PlayerId} {ref : PartyRef} {party : Party}
variable {c r : ChannelRef} {channel : Channel} {channelId : Nat}

/-- The users of a channel, none if there is no such channel. -/
def users (s : State) (c : ChannelRef) : List PlayerId :=
  ((s.channels c).map Channel.users).getD []

/-- The player is in the party, or in the guild, of which this is the channel. -/
def entitled (s : State) (q : PlayerId) : ChannelRef → Prop
  | .partyChannel address => ∃ ref party, s.parties.party ref = some party ∧
      s.address ref = address ∧ party.Has q
  | .guildChannel guildId => ∃ guild, s.guild q = some guild ∧ guild.id = guildId
  | _ => True

def withParties (s : State) (parties : Parties) : State := { s with parties }

/-! ### Nothing is closed

A player who has lost his party is not found as a user of its channel any more. -/

theorem sendClosePrivate_of_left (left : (s.parties.player p).party = none) :
    s.sendClosePrivate ans p CHANNEL_PARTY = s := by
  have lookup : s.getChannel ans p CHANNEL_PARTY = none := by
    unfold getChannel
    rw [if_neg (by decide), if_pos rfl, left]
    rfl
  unfold sendClosePrivate removeUserFromChannel
  rw [if_pos (.inr rfl), lookup]

theorem setParty_none_closePrivate (s : State) (p : PlayerId) :
    (s.setParty p none).sendClosePrivate ans p CHANNEL_PARTY =
      s.withParties (s.parties.setParty p none) := by
  refine sendClosePrivate_of_left ?_
  unfold setParty
  rw [Parties.setParty_player, if_pos rfl]

theorem disband_eq (s : State) (ref : PartyRef) :
    s.disband ans ref = s.withParties (s.parties.disband ref) := by
  have members : ∀ (l : List PlayerId) (s : State), l.foldl (fun s member =>
      (s.setParty member none).sendClosePrivate ans member CHANNEL_PARTY) s =
        s.withParties (l.foldl (fun parties member => parties.setParty member none) s.parties) := by
    intro l
    induction l with
    | nil => exact fun s => rfl
    | cons a l ih =>
        intro s
        rw [List.foldl_cons, setParty_none_closePrivate, ih]
        rfl
  unfold disband Parties.disband
  cases s.parties.party ref with
  | none => rfl
  | some party =>
      dsimp only
      rw [setParty_none_closePrivate, members]
      rfl

theorem disbandIfEmpty_eq (s : State) (ref : PartyRef) (missing : Bool) :
    s.disbandIfEmpty ans ref missing = s.withParties (s.parties.disbandIfEmpty ref missing) := by
  unfold disbandIfEmpty Parties.disbandIfEmpty
  cases s.parties.party ref with
  | none => rfl
  | some party =>
      dsimp only
      split_ifs
      · exact s.disband_eq ref
      · rfl

theorem removeMember_eq (s : State) (ref : PartyRef) (p : PlayerId) :
    s.removeMember ans ref p = s.withParties (s.parties.removeMember ref p) := by
  unfold removeMember Parties.removeMember
  cases s.parties.party ref with
  | none => rfl
  | some party => exact setParty_none_closePrivate _ p

theorem leaveParty_eq (s : State) (ref : PartyRef) (p : PlayerId) :
    s.leaveParty ans ref p = s.withParties (s.parties.leaveParty ref p) := by
  unfold leaveParty Parties.leaveParty
  cases s.parties.party ref with
  | none => rfl
  | some party =>
      dsimp only
      split_ifs
      · rfl
      · rw [removeMember_eq, disbandIfEmpty_eq]
        rfl

theorem removeInvite_eq (s : State) (ref : PartyRef) (p : PlayerId) (b : Bool) :
    s.removeInvite ans ref p b = s.withParties (s.parties.removeInvite ref p b) := by
  unfold removeInvite Parties.removeInvite
  cases s.parties.party ref with
  | none => rfl
  | some party =>
      dsimp only
      split_ifs
      · exact disbandIfEmpty_eq _ ref false
      · exact disbandIfEmpty_eq _ ref false
      · rfl

theorem clearPartyInvitations_eq (s : State) (p : PlayerId) :
    s.clearPartyInvitations ans p = s.withParties (s.parties.clearPartyInvitations p) := by
  have all : ∀ (l : List PartyRef) (s : State),
      l.foldl (fun s ref => s.removeInvite ans ref p false) s =
        s.withParties (l.foldl (fun parties ref => parties.removeInvite ref p false) s.parties) := by
    intro l
    induction l with
    | nil => exact fun s => rfl
    | cons a l ih =>
        intro s
        rw [List.foldl_cons, removeInvite_eq, ih]
        rfl
  unfold clearPartyInvitations Parties.clearPartyInvitations
  rw [all]
  rfl

theorem leaveOwnParty_eq (s : State) (p : PlayerId) :
    s.leaveOwnParty ans p = s.withParties (s.parties.leaveOwnParty p) := by
  unfold leaveOwnParty Parties.leaveOwnParty
  cases (s.parties.player p).party with
  | none => rfl
  | some ref => exact s.leaveParty_eq ref p

theorem onRemoveCreature_eq (s : State) (p : PlayerId) :
    s.onRemoveCreature ans p =
      (s.removeUserFromAllChannels p).withParties (s.parties.onRemoveCreature p) := by
  unfold onRemoveCreature
  rw [clearPartyInvitations_eq, leaveOwnParty_eq]
  rfl

/-! ### The users of channels

What the functions of `Chat` do: a channel gets no user but one who is entitled to it. -/

theorem users_setChannel (s : State) (c r : ChannelRef) (channel : Option Channel) :
    (s.setChannel c channel).users r =
      if r = c then (channel.map Channel.users).getD [] else s.users r := by
  by_cases same : r = c
  · subst same
    simp [users, setChannel]
  · simp [users, setChannel, same]

theorem users_of_some (h : s.channels c = some channel) : s.users c = channel.users := by
  unfold users
  rw [h]
  rfl

/-- Channels and their users change, and users are added to channels they are entitled to. -/
structure Opens (s s' : State) : Prop where
  parties : s'.parties = s.parties
  address : s'.address = s.address
  guild : s'.guild = s.guild
  users : ∀ {c q}, q ∈ s'.users c → q ∈ s.users c ∨ (s.entitled q c ∧ s.online q = true)

theorem Opens.refl (s : State) : Opens s s := ⟨rfl, rfl, rfl, .inl⟩

theorem Opens.entitled (h : Opens s s') (q : PlayerId) (c : ChannelRef) :
    s'.entitled q c ↔ s.entitled q c := by
  cases c with
  | normalChannel => exact Iff.rfl
  | privateChannel => exact Iff.rfl
  | partyChannel address =>
      unfold State.entitled
      rw [h.parties, h.address]
  | guildChannel guildId =>
      unfold State.entitled
      rw [h.guild]

theorem Opens.trans (h : Opens s s') (h' : Opens s' s'') : Opens s s'' := by
  refine ⟨h'.parties.trans h.parties, h'.address.trans h.address, h'.guild.trans h.guild,
    fun {c q} hq => ?_⟩
  rcases h'.users hq with old | ⟨entitled, online⟩
  · exact h.users old
  · refine .inr ⟨(h.entitled q c).mp entitled, ?_⟩
    unfold State.online at online ⊢
    rwa [h.parties] at online

/-- One channel is written. -/
theorem opens_setChannel (channel : Option Channel)
    (h : ∀ q ∈ (channel.map Channel.users).getD [],
      q ∈ s.users c ∨ (s.entitled q c ∧ s.online q = true)) :
    Opens s (s.setChannel c channel) := by
  refine ⟨rfl, rfl, rfl, fun {r q} hq => ?_⟩
  rw [users_setChannel] at hq
  split_ifs at hq with same
  · exact same ▸ h q hq
  · exact .inl hq

theorem emplace_opens (s : State) (c : ChannelRef) : Opens s (s.emplace c {}) := by
  unfold emplace
  split_ifs
  · exact .refl s
  · exact opens_setChannel _ fun q hq => absurd hq List.not_mem_nil

theorem createChannel_opens (s : State) (p : PlayerId) (channelId : Nat) :
    Opens s (s.createChannel ans p channelId).1 := by
  unfold createChannel
  split_ifs
  · exact .refl s
  · split
    · exact s.emplace_opens _
    · exact .refl s
  · split
    · exact s.emplace_opens _
    · exact .refl s
  · exact .refl s
  · split
    · exact opens_setChannel _ fun q hq => absurd hq List.not_mem_nil
    · exact .refl s
  · exact .refl s

theorem deleteChannel_opens (s : State) (p : PlayerId) (channelId : Nat) :
    Opens s (s.deleteChannel p channelId) := by
  have erased : ∀ c, Opens s (s.setChannel c none) :=
    fun c => opens_setChannel _ fun q hq => absurd hq List.not_mem_nil
  unfold deleteChannel
  (repeat' split) <;> first | exact .refl s | exact erased _

theorem removeUser_opens (s : State) (c : ChannelRef) (p : PlayerId) :
    Opens s (s.removeUser c p) := by
  unfold removeUser
  cases h : s.channels c with
  | none => exact .refl s
  | some channel =>
      refine opens_setChannel _ fun q hq => .inl ?_
      rw [users_of_some h]
      exact (List.mem_filter.mp hq).1

theorem removeUserFromChannel_opens (s : State) (p : PlayerId) (channelId : Nat) :
    Opens s (s.removeUserFromChannel ans p channelId) := by
  unfold removeUserFromChannel
  split
  · exact .refl s
  · split
    · exact .refl s
    · split
      · dsimp only
        split
        · exact (s.removeUser_opens _ p).trans (deleteChannel_opens _ p channelId)
        · exact s.removeUser_opens _ p
      · exact .refl s

/-- A channel that is found is one the player may read. -/
theorem entitled_of_getChannel (held : s.parties.Held)
    (found : s.getChannel ans p channelId = some c) : s.entitled p c := by
  unfold getChannel at found
  split at found
  · obtain ⟨guild, linked, found⟩ := Option.bind_eq_some_iff.mp found
    obtain ⟨channel, -, rfl⟩ := Option.map_eq_some_iff.mp found
    exact ⟨guild, linked, rfl⟩
  · split at found
    · obtain ⟨ref, linked, found⟩ := Option.bind_eq_some_iff.mp found
      obtain ⟨channel, -, rfl⟩ := Option.map_eq_some_iff.mp found
      obtain ⟨party, alive, has⟩ := held.has linked
      exact ⟨ref, party, alive, rfl, has⟩
    · split at found
      · split_ifs at found
        exact Option.some.inj found ▸ trivial
      · split at found
        · split_ifs at found
          exact Option.some.inj found ▸ trivial
        · cases found

theorem addUser_opens (entitled : s.entitled p c) (online : s.online p = true) :
    Opens s (s.addUser ans c p) := by
  unfold addUser
  cases h : s.channels c with
  | none => exact .refl s
  | some channel =>
      dsimp only
      split_ifs
      · exact .refl s
      · refine opens_setChannel _ fun q hq => ?_
        rw [users_of_some h]
        rcases (List.mem_orderedInsert (· ≤ ·)).mp hq with rfl | old
        · exact .inr ⟨entitled, online⟩
        · exact .inl old
      · exact .refl s

theorem addUserToChannel_opens (held : s.parties.Held) (online : s.online p = true)
    (channelId : Nat) : Opens s (s.addUserToChannel ans p channelId) := by
  unfold addUserToChannel
  split
  · next found => exact addUser_opens (entitled_of_getChannel held found) online
  · exact .refl s

theorem createPrivate_opens (s : State) (p : PlayerId) :
    Opens s (s.playerCreatePrivateChannel ans p) := by
  unfold playerCreatePrivateChannel
  split
  · exact .refl s
  · next asked =>
      have online : s.online p = true := by
        simp only [Bool.or_eq_true, Bool.not_eq_true', not_or, Bool.not_eq_false] at asked
        exact asked.1
      have created : Opens s (s.createChannel ans p CHANNEL_PRIVATE).1 :=
        s.createChannel_opens p CHANNEL_PRIVATE
      split
      · next t c made =>
          rw [made] at created
          refine created.trans (addUser_opens ?_ ?_)
          · -- a channel that is made under this id is a private one
            unfold createChannel at made
            rw [if_neg (by decide : CHANNEL_PRIVATE ≠ CHANNEL_GUILD),
              if_neg (by decide : CHANNEL_PRIVATE ≠ CHANNEL_PARTY), if_pos rfl] at made
            (repeat' split at made) <;> cases made
            trivial
          · unfold State.online at online ⊢
            rwa [created.parties]
      · next t made =>
          rw [made] at created
          exact created

theorem changeOwn_opens (s : State) (p other : PlayerId) {change : Channel → Channel}
    (h : ∀ channel, ∀ q ∈ (change channel).users, q ∈ channel.users) :
    Opens s (s.changeOwn p other change) := by
  unfold changeOwn
  split
  · exact .refl s
  · split
    · exact .refl s
    · next i _ =>
        refine opens_setChannel _ fun q hq => .inl ?_
        cases found : s.channels (.privateChannel i) with
        | none =>
            rw [found] at hq
            exact absurd hq List.not_mem_nil
        | some channel =>
            rw [found] at hq
            rw [users_of_some found]
            exact h channel q hq

/-- After a player is taken off all channels he is a user of none, and no one is new. -/
theorem users_removeUserFromAllChannels (s : State) (p : PlayerId) {q : PlayerId} {c : ChannelRef}
    (hq : q ∈ (s.removeUserFromAllChannels p).users c) : q ∈ s.users c ∧ q ≠ p := by
  unfold users removeUserFromAllChannels at hq
  cases h : s.channels c with
  | none =>
      simp only [h, Option.bind_none] at hq
      exact absurd hq List.not_mem_nil
  | some channel =>
      rw [users_of_some h]
      have kept : ∀ q ∈ channel.users.filter (· ≠ p), q ∈ channel.users ∧ q ≠ p := by
        intro q hq
        simpa using hq
      simp only [h, Option.bind_some] at hq
      cases c with
      | privateChannel =>
          unfold withoutPlayer at hq
          dsimp only at hq
          split_ifs at hq
          · exact absurd hq List.not_mem_nil
          · exact kept q hq
      | normalChannel => exact kept q hq
      | partyChannel => exact kept q hq
      | guildChannel => exact kept q hq

theorem removeUserFromAllChannels_opens (s : State) (p : PlayerId) :
    Opens s (s.removeUserFromAllChannels p) :=
  ⟨rfl, rfl, rfl, fun hq => .inl (s.users_removeUserFromAllChannels p hq).1⟩

/-! ### Who loses his place -/

/-- The player loses his place in the party, or, when a player is removed, another one does. -/
def loses (s : State) : Event → PartyRef → PlayerId → Prop
  | .revoke p invited, ref, _ =>
      s.parties.leads p = some ref ∧ s.parties.isInviting p invited = true ∧
        ∃ party, s.parties.party ref = some party ∧ party.memberList = [] ∧
          party.inviteList.erase invited = []
  | .leave p inFight, ref, q =>
      inFight = false ∧ (s.parties.player p).party = some ref ∧
        (q = p ∨ ∃ party, s.parties.party ref = some party ∧ Parties.breaksUp party p)
  | .disband disbanded, ref, _ => ref = disbanded
  | .remove p, ref, q =>
      q ≠ p ∧ ∃ party, s.parties.party ref = some party ∧ (∀ i ∈ party.inviteList, i = p) ∧
        (((s.parties.player p).party = some ref ∧ party.memberList.length = 1) ∨
          (ref ∈ (s.parties.player p).invitePartyList ∧ party.memberList = []))
  | _, _, _ => False

def losesGuild (s : State) : Event → PlayerId → Prop
  | .setGuild p guild, q => q = p ∧ guild.map Guild.id ≠ (s.guild p).map GuildLink.id
  | _, _ => False

/-- Those who lose their party or guild have closed its channel. -/
structure Closed (s : State) (e : Event) : Prop where
  party : ∀ ref party q, s.parties.party ref = some party → party.Has q → s.loses e ref q →
    q ∉ s.users (.partyChannel (s.address ref))
  guild : ∀ q guild, s.guild q = some guild → s.losesGuild e q →
    q ∉ s.users (.guildChannel guild.id)

theorem Closed.of_no_one {e : Event} (party : ∀ ref q, ¬s.loses e ref q)
    (guild : ∀ q, ¬s.losesGuild e q) : s.Closed e :=
  ⟨fun ref _ q _ _ gone => absurd gone (party ref q), fun q _ _ lost => absurd lost (guild q)⟩

/-! ### The invariant -/

structure Inv (s : State) : Prop where
  held : s.parties.Held
  distinct : ∀ {r r' party party'}, s.parties.party r = some party →
    s.parties.party r' = some party' → s.address r = s.address r' → r = r'
  entitled : ∀ {c q}, q ∈ s.users c → s.entitled q c ∧ s.online q = true

theorem Inv.opens (h : s.Inv) (opens : Opens s s') : s'.Inv := by
  refine ⟨?_, ?_, fun {c q} hq => ?_⟩
  · rw [opens.parties]
    exact h.held
  · rw [opens.parties, opens.address]
    exact h.distinct
  · have both : s.entitled q c ∧ s.online q = true := (opens.users hq).elim h.entitled id
    refine ⟨(opens.entitled q c).mpr both.1, ?_⟩
    unfold State.online at both ⊢
    rw [opens.parties]
    exact both.2

/-- Everyone who is lost has closed the channel of his party. -/
theorem Inv.stays (h : s.Inv) {lost : PartyRef → PlayerId → Prop} {parties : Parties}
    (stays : Parties.Stays lost s.parties parties)
    (closed : ∀ ref party q, s.parties.party ref = some party → party.Has q → lost ref q →
      q ∉ s.users (.partyChannel (s.address ref))) : (s.withParties parties).Inv := by
  refine ⟨stays.held h.held, fun {r r' _ _} alive alive' same => ?_, fun {c q} hq => ?_⟩
  · obtain ⟨party, alive⟩ := stays.alive alive
    obtain ⟨party', alive'⟩ := stays.alive alive'
    exact h.distinct alive alive' same
  · obtain ⟨entitled, online⟩ := h.entitled hq
    refine ⟨?_, (congrFun stays.online q).trans online⟩
    cases c with
    | normalChannel => trivial
    | privateChannel => trivial
    | guildChannel => exact entitled
    | partyChannel address =>
        obtain ⟨ref, party, alive, rfl, has⟩ := entitled
        rcases stays.has alive has with gone | ⟨new, alive', has'⟩
        · exact absurd hq (closed ref party q alive has gone)
        · exact ⟨ref, new, alive', rfl, has'⟩

/-- No one loses his place. -/
theorem Inv.kept (h : s.Inv) {parties : Parties}
    (stays : Parties.Stays (fun _ _ => False) s.parties parties) : (s.withParties parties).Inv :=
  h.stays stays fun _ _ _ _ _ gone => gone.elim

theorem Inv.invite (h : s.Inv) (p invited : PlayerId) {address : Nat}
    (possible : s.possible (.invite p invited address)) :
    (s.playerInviteToParty p invited address).Inv := by
  have founds := Parties.playerInviteToParty_founds h.held p invited
  have old : ∀ {r party}, s.parties.party r = some party →
      (s.playerInviteToParty p invited address).address r = s.address r :=
    fun alive => Function.update_of_ne (h.held.fresh alive).ne ..
  have here : (s.playerInviteToParty p invited address).address s.parties.next = address :=
    Function.update_self ..
  refine ⟨founds.held h.held, fun {r r' _ _} alive alive' same => ?_, fun {c q} hq => ?_⟩
  · rcases founds.alive alive with rfl | ⟨party, alive⟩
    · rcases founds.alive alive' with rfl | ⟨party', alive'⟩
      · rfl
      · rw [here, old alive'] at same
        exact absurd same.symm (possible r' party' alive')
    · rcases founds.alive alive' with rfl | ⟨party', alive'⟩
      · rw [here, old alive] at same
        exact absurd same (possible r party alive)
      · rw [old alive, old alive'] at same
        exact h.distinct alive alive' same
  · obtain ⟨entitled, online⟩ := h.entitled hq
    refine ⟨?_, (congrFun founds.online q).trans online⟩
    cases c with
    | normalChannel => trivial
    | privateChannel => trivial
    | guildChannel => exact entitled
    | partyChannel address =>
        obtain ⟨ref, party, alive, rfl, has⟩ := entitled
        obtain ⟨new, alive', has'⟩ := founds.has alive has
        exact ⟨ref, new, alive', old alive, has'⟩

/-- A player who is no user of any channel changes his guild, or is online or not. -/
theorem Inv.absent (h : s.Inv) {p : PlayerId} {s' : State} (held : s'.parties.Held)
    (party : s'.parties.party = s.parties.party) (address : s'.address = s.address)
    (channels : s'.channels = s.channels)
    (guild : ∀ q, q ≠ p → s'.guild q = s.guild q) (online : ∀ q, q ≠ p → s'.online q = s.online q)
    (away : ∀ c, p ∉ s.users c) : s'.Inv := by
  have same : ∀ c, s'.users c = s.users c := by
    intro c
    unfold users
    rw [channels]
  refine ⟨held, ?_, fun {c q} hq => ?_⟩
  · rw [party, address]
    exact h.distinct
  · rw [same] at hq
    have other : q ≠ p := fun same => away c (same ▸ hq)
    obtain ⟨entitled, on⟩ := h.entitled hq
    refine ⟨?_, (online q other).trans on⟩
    cases c with
    | normalChannel => trivial
    | privateChannel => trivial
    | guildChannel guildId =>
        unfold State.entitled
        rw [guild q other]
        exact entitled
    | partyChannel =>
        unfold State.entitled
        rw [party, address]
        exact entitled

theorem Inv.login (h : s.Inv) (p : PlayerId) (guid : Nat) (guild : Option GuildLink) :
    (s.login p guid guild).Inv := by
  unfold State.login
  split
  · exact h
  · next offline =>
      have entered : s.parties.step (.login p) =
          { s.parties.setPlayer p {} with online := Function.update s.parties.online p true } :=
        if_neg offline
      refine h.absent (p := p) ⟨fun {q r} linked => ?_, fun {r party} alive => ?_⟩ ?_ rfl rfl
        (fun q other => Function.update_of_ne other ..) (fun q other => ?_)
        fun c hp => offline (h.entitled hp).2
      · rw [entered] at linked ⊢
        change ((s.parties.setPlayer p {}).player q).party = some r at linked
        rw [Parties.setPlayer_player] at linked
        split_ifs at linked
        exact h.held.has linked
      · rw [entered] at alive ⊢
        exact h.held.fresh alive
      · rw [entered]
        rfl
      · unfold State.online
        rw [entered]
        exact Function.update_of_ne other ..

theorem Inv.remove (h : s.Inv) (p : PlayerId)
    (closed : ∀ ref party q, s.parties.party ref = some party → party.Has q →
      s.loses (.remove p) ref q → q ∉ s.users (.partyChannel (s.address ref))) :
    (s.onRemoveCreature ans p).Inv := by
  rw [onRemoveCreature_eq]
  have off := h.opens (s.removeUserFromAllChannels_opens p)
  have left := off.stays (Parties.removal_stays h.held p) fun ref party q alive has gone hq => by
    obtain ⟨user, other⟩ := s.users_removeUserFromAllChannels p hq
    exact closed ref party q alive has ⟨other, gone.resolve_left other⟩ user
  refine left.absent (p := p) ⟨left.held.has, left.held.fresh⟩ rfl rfl rfl (fun _ _ => rfl)
    (fun q other => Function.update_of_ne other ..) fun c hp => ?_
  exact (s.users_removeUserFromAllChannels p hp).2 rfl

theorem Inv.setGuild (h : s.Inv) (p : PlayerId) (guild : Option Guild)
    (closed : ∀ link, s.guild p = some link → s.losesGuild (.setGuild p guild) p →
      p ∉ s.users (.guildChannel link.id)) : (s.setGuild p guild).Inv := by
  unfold State.setGuild
  split
  · exact h
  · next changed =>
      refine ⟨h.held, h.distinct, fun {c q} hq => ?_⟩
      obtain ⟨entitled, online⟩ := h.entitled hq
      refine ⟨?_, online⟩
      cases c with
      | normalChannel => trivial
      | privateChannel => trivial
      | partyChannel => exact entitled
      | guildChannel guildId =>
          obtain ⟨link, linked, rfl⟩ := entitled
          have other : q ≠ p := by
            rintro rfl
            exact closed link linked ⟨rfl, changed⟩ hq
          exact ⟨link, (Function.update_of_ne other ..).trans linked, rfl⟩

/-! ### All events -/

theorem Inv.step (h : s.Inv) (ans : Answers) (e : Event) (possible : s.possible e)
    (closed : s.Closed e) : (s.step ans e).Inv := by
  cases e with
  | login p guid guild => exact h.login p guid guild
  | invite p invited address => exact h.invite p invited possible
  | join p leader => exact h.kept (s.parties.playerJoinParty_stays p leader)
  | revoke p invited =>
      simp only [State.step, playerRevokePartyInvitation]
      split
      · exact h
      · split
        · exact h
        · next ref leads =>
            split
            · exact h
            · next asked =>
                simp only [Bool.or_eq_true, Bool.not_eq_true', not_or, Bool.not_eq_false] at asked
                rw [removeInvite_eq]
                refine h.stays (s.parties.removeInvite_stays ref invited true)
                  fun r party q alive has gone => closed.party r party q alive has ?_
                exact ⟨gone.1 ▸ leads, asked.2, gone.1 ▸ gone.2⟩
  | passLeadership p newLeader =>
      exact h.kept (s.parties.playerPassPartyLeadership_stays p newLeader)
  | leave p inFight =>
      simp only [State.step, playerLeaveParty]
      split
      · exact h
      · split
        · exact h
        · next ref linked =>
            split
            · exact h
            · next calm =>
                rw [leaveParty_eq]
                refine h.stays (Parties.leaveParty_stays h.held linked)
                  fun r party q alive has gone => closed.party r party q alive has ?_
                exact ⟨by simpa using calm, gone.1 ▸ linked, gone.1 ▸ gone.2⟩
  | disband ref =>
      simp only [State.step, disband_eq]
      exact h.stays (s.parties.disband_stays ref) fun r party q alive has gone =>
        closed.party r party q alive has gone
  | remove p =>
      simp only [State.step]
      split
      · exact h.remove p fun ref party q alive has gone => closed.party ref party q alive has gone
      · exact h
  | setGuild p guild =>
      exact h.setGuild p guild fun link linked lost => closed.guild p link linked lost
  | requestChannels p =>
      simp only [State.step]
      split
      · exact h.opens ((s.createChannel_opens p _).trans (createChannel_opens _ p _))
      · exact h
  | openChannel p channelId =>
      simp only [State.step]
      split
      · next online => exact h.opens (addUserToChannel_opens h.held online channelId)
      · exact h
  | closeChannel p channelId =>
      simp only [State.step]
      split
      · exact h.opens (s.removeUserFromChannel_opens p channelId)
      · exact h
  | createPrivateChannel p => exact h.opens (s.createPrivate_opens p)
  | channelInvite p invited =>
      refine h.opens (s.changeOwn_opens p invited fun channel q hq => ?_)
      split_ifs at hq <;> exact hq
  | channelExclude p excluded =>
      refine h.opens (s.changeOwn_opens p excluded fun channel q hq => ?_)
      split_ifs at hq
      · exact (List.mem_filter.mp hq).1
      · exact hq
  | connect p =>
      simp only [State.step]
      split
      · exact h.opens (s.removeUserFromAllChannels_opens p)
      · exact h

/-! ### Runs -/

/-- The states that events lead to, where every event meets a condition. -/
inductive Run (meets : State → Event → Prop) : State → Prop
  | init (normalChannels : List Nat) : Run meets (init normalChannels)
  | step {s : State} (run : Run meets s) (ans : Answers) (e : Event) (possible : s.possible e)
      (h : meets s e) : Run meets (s.step ans e)

theorem inv_init (normalChannels : List Nat) : (init normalChannels).Inv := by
  refine ⟨⟨by simp [init], by simp [init]⟩, by simp [init], fun {c q} hq => ?_⟩
  unfold users init at hq
  cases c with
  | normalChannel channelId =>
      dsimp only at hq
      split at hq
      · exact absurd hq List.not_mem_nil
      · exact absurd hq List.not_mem_nil
  | privateChannel => exact absurd hq List.not_mem_nil
  | partyChannel => exact absurd hq List.not_mem_nil
  | guildChannel => exact absurd hq List.not_mem_nil

theorem Run.inv (run : Run Closed s) : s.Inv := by
  induction run with
  | init normalChannels => exact inv_init normalChannels
  | step run ans e possible closed ih => exact ih.step ans e possible closed

/-! ### What is heard -/

/-- Who is a user of a party or guild channel is in the party or guild, and who hears what is said
there is in it too. -/
structure MembersOnly (s : State) : Prop where
  party : ∀ address, ∀ q ∈ s.users (.partyChannel address), ∃ ref party,
    s.parties.party ref = some party ∧ s.address ref = address ∧
      (party.leader = q ∨ q ∈ party.memberList)
  guild : ∀ guildId, ∀ q ∈ s.users (.guildChannel guildId), ∃ guild,
    s.guild q = some guild ∧ guild.id = guildId
  partyTalk : ∀ ans p type class_ hearers,
    s.talkToChannel ans p type CHANNEL_PARTY = some (class_, hearers) →
      ∃ ref party, (s.parties.player p).party = some ref ∧ s.parties.party ref = some party ∧
        ∀ q ∈ hearers, party.leader = q ∨ q ∈ party.memberList
  guildTalk : ∀ ans p type class_ hearers,
    s.talkToChannel ans p type CHANNEL_GUILD = some (class_, hearers) →
      ∃ guild, s.guild p = some guild ∧
        ∀ q ∈ hearers, ∃ other, s.guild q = some other ∧ other.id = guild.id

/-- Who hears a message is a user of the channel that is found. -/
theorem talkToChannel_hearers {type class_ : SpeakClass} {hearers : List PlayerId}
    (talk : s.talkToChannel ans p type channelId = some (class_, hearers)) :
    ∃ c, s.getChannel ans p channelId = some c ∧ s.users c = hearers := by
  unfold talkToChannel at talk
  cases found : s.getChannel ans p channelId with
  | none =>
      rw [found] at talk
      cases talk
  | some c =>
      rw [found] at talk
      refine ⟨c, rfl, ?_⟩
      dsimp only at talk
      split at talk
      · next h =>
          split_ifs at talk
          rw [users_of_some h]
          exact congrArg Prod.snd (Option.some.inj talk)
      · cases talk

theorem Inv.membersOnly (h : s.Inv) : s.MembersOnly := by
  refine ⟨fun address q hq => (h.entitled hq).1, fun guildId q hq => (h.entitled hq).1,
    fun ans p type class_ hearers talk => ?_, fun ans p type class_ hearers talk => ?_⟩
  · obtain ⟨c, found, rfl⟩ := talkToChannel_hearers talk
    unfold getChannel at found
    rw [if_neg (by decide), if_pos rfl] at found
    obtain ⟨ref, linked, found⟩ := Option.bind_eq_some_iff.mp found
    obtain ⟨channel, -, rfl⟩ := Option.map_eq_some_iff.mp found
    obtain ⟨party, alive, -⟩ := h.held.has linked
    refine ⟨ref, party, linked, alive, fun q hq => ?_⟩
    obtain ⟨other, party', alive', same, has⟩ := (h.entitled hq).1
    obtain rfl := h.distinct alive' alive same
    exact Option.some.inj (alive'.symm.trans alive) ▸ has
  · obtain ⟨c, found, rfl⟩ := talkToChannel_hearers talk
    unfold getChannel at found
    rw [if_pos rfl] at found
    obtain ⟨guild, linked, found⟩ := Option.bind_eq_some_iff.mp found
    obtain ⟨channel, -, rfl⟩ := Option.map_eq_some_iff.mp found
    exact ⟨guild, linked, fun q hq => (h.entitled hq).1⟩

/-- In every run in which those who lose their party or guild have closed its channel before, the
users of the channels of parties and guilds are their members. -/
theorem Run.members_only (run : Run Closed s) : s.MembersOnly := run.inv.membersOnly

end State

/-! ### A party of three

All three see their channel; the second one leaves. -/

namespace Sample

open State

def ans : Answers where
  isPremium _ := false
  canJoin _ _ := true
  onJoin _ _ := true
  onSpeak _ _ type := some type

def start : State :=
  (((init []).step ans (.login 0 10 none)).step ans (.login 1 11 none)).step ans (.login 2 12 none)

def founded : State := start.step ans (.invite 0 1 7)

def three : State :=
  ((founded.step ans (.invite 0 2 8)).step ans (.join 1 0)).step ans (.join 2 0)

/-- The leader and a member have opened the channel. -/
def opened : State :=
  ((three.step ans (.requestChannels 0)).step ans (.openChannel 0 1)).step ans (.openChannel 1 1)

def left : State := opened.step ans (.leave 1 false)

def closed : State := opened.step ans (.closeChannel 1 1)

def closedAndLeft : State := closed.step ans (.leave 1 false)

theorem opened_run {meets : State → Event → Prop}
    (h : ∀ s e, (∀ ref q, ¬s.loses e ref q) → (∀ q, ¬s.losesGuild e q) → meets s e) :
    Run meets opened := by
  have start_run : Run meets start :=
    (((Run.init []).step ans (.login 0 10 none) trivial (h _ _ (fun _ _ => id) fun _ => id)).step ans
      (.login 1 11 none) trivial (h _ _ (fun _ _ => id) fun _ => id)).step ans
      (.login 2 12 none) trivial (h _ _ (fun _ _ => id) fun _ => id)
  have unfounded : ∀ ref, start.parties.party ref = none := fun _ => rfl
  have founded_run : Run meets founded :=
    start_run.step ans (.invite 0 1 7)
      (fun ref party alive => by rw [unfounded] at alive; cases alive)
      (h _ _ (fun _ _ => id) fun _ => id)
  have free : ∀ ref, founded.address ref ≠ 8 := by
    intro ref
    cases ref with
    | zero => decide
    | succ n => exact (by decide : (0 : Nat) ≠ 8)
  have three_run : Run meets three :=
    ((founded_run.step ans (.invite 0 2 8) (fun ref _ _ => free ref)
      (h _ _ (fun _ _ => id) fun _ => id)).step ans (.join 1 0) trivial
      (h _ _ (fun _ _ => id) fun _ => id)).step ans (.join 2 0) trivial
      (h _ _ (fun _ _ => id) fun _ => id)
  exact ((three_run.step ans (.requestChannels 0) trivial (h _ _ (fun _ _ => id) fun _ => id)).step
    ans (.openChannel 0 1) trivial (h _ _ (fun _ _ => id) fun _ => id)).step ans (.openChannel 1 1)
    trivial (h _ _ (fun _ _ => id) fun _ => id)

theorem three_party : opened.parties.party 0 = some { leader := 0, memberList := [1, 2] } := by
  decide

/-- Who has left the party without closing its channel hears what is said in it. -/
theorem overheard : ¬∀ s, Run (fun _ _ => True) s → MembersOnly s := by
  intro always
  have run : Run (fun _ _ => True) left :=
    (opened_run fun _ _ _ _ => trivial).step ans (.leave 1 false) trivial trivial
  obtain ⟨ref, party, linked, alive, inside⟩ := (always left run).partyTalk ans 0 .channelY .channelY
    [0, 1] (by decide)
  have own : (left.parties.player 0).party = some 0 := by decide
  obtain rfl := Option.some.inj (own.symm.trans linked)
  have after : left.parties.party 0 = some { leader := 0, memberList := [2] } := by decide
  obtain rfl := Option.some.inj (after.symm.trans alive)
  exact absurd (inside 1 (by decide)) (by decide)

theorem closed_leave : Closed closed (.leave 1 false) := by
  refine ⟨fun ref party q alive has gone => ?_, fun q guild linked lost => lost.elim⟩
  obtain ⟨-, linked, gone⟩ := gone
  have own : (closed.parties.player 1).party = some 0 := by decide
  obtain rfl := Option.some.inj (own.symm.trans linked)
  rcases gone with rfl | ⟨party', alive', ends⟩
  · decide
  · obtain rfl := Option.some.inj (three_party.symm.trans alive')
    simp [Parties.breaksUp] at ends

theorem closed_members_only : MembersOnly closedAndLeft :=
  Run.members_only (((opened_run fun _ _ => Closed.of_no_one).step ans (.closeChannel 1 1) trivial
    (Closed.of_no_one (fun _ _ => id) fun _ => id)).step ans (.leave 1 false) trivial closed_leave)

end Sample

end TibServer.Chat
