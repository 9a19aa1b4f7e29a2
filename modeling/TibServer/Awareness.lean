import Mathlib.Tactic
import TibServer.MonsterLists

/-!
What the lists of a monster hold. Whatever happens, no creature is listed twice and each entry has
one reference. That the entries are in view and are opponents and friends holds in a run as long as
no creature is noticed that the monster does not see, and none changes sides, or loses its master
while it is removed, while it is listed: the lists are changed by what a creature is at that time.
-/

namespace TibServer.Monster

variable {w w' : Surroundings} {l : Lists} {c d : CreatureId} {T F T' F' : CreatureId → Prop}

/-! ### The lists

The targets have one property and the friends another one. -/

structure Listed (T F : CreatureId → Prop) (l : Lists) : Prop where
  targets_nodup : l.targetList.Nodup
  friends_nodup : l.friendList.Nodup
  references : ∀ c, l.references c = l.targetList.count c + l.friendList.count c
  target : ∀ c ∈ l.targetList, T c
  befriended : ∀ c ∈ l.friendList, F c

namespace Listed

theorem mono (h : Listed T F l) (target : ∀ c ∈ l.targetList, T c → T' c)
    (befriended : ∀ c ∈ l.friendList, F c → F' c) : Listed T' F' l :=
  ⟨h.targets_nodup, h.friends_nodup, h.references, fun c hc => target c hc (h.target c hc),
    fun c hc => befriended c hc (h.befriended c hc)⟩

theorem addFriend (h : Listed T F l) (hc : F c) : Listed T F (l.addFriend c) := by
  unfold Lists.addFriend
  split
  · exact h
  · next new =>
      refine ⟨h.targets_nodup, List.nodup_cons.mpr ⟨new, h.friends_nodup⟩, fun d => ?_, h.target,
        fun d hd => ?_⟩
      · have := h.references d
        by_cases same : d = c
        · subst same
          simp [Lists.incrementReference, this]
          omega
        · simp [Lists.incrementReference, Function.update_of_ne same, List.count_cons_of_ne (Ne.symm same), this]
      · rcases List.mem_cons.mp hd with rfl | old
        · exact hc
        · exact h.befriended d old

theorem addTarget (h : Listed T F l) (hc : T c) (pushFront : Bool) :
    Listed T F (l.addTarget c pushFront) := by
  unfold Lists.addTarget
  split
  · exact h
  · next new =>
      have added : ∀ list : List CreatureId, list.Perm (c :: l.targetList) →
          Listed T F (({ l with targetList := list } : Lists).incrementReference c) := by
        intro list perm
        refine ⟨perm.nodup_iff.mpr (List.nodup_cons.mpr ⟨new, h.targets_nodup⟩), h.friends_nodup,
          fun d => ?_, fun d hd => ?_, h.befriended⟩
        · have := h.references d
          have counted : list.count d = (c :: l.targetList).count d := perm.count_eq d
          by_cases same : d = c
          · subst same
            simp [Lists.incrementReference, this, counted]
            omega
          · simp [Lists.incrementReference, Function.update_of_ne same, this, counted,
              List.count_cons_of_ne (Ne.symm same)]
        · rcases List.mem_cons.mp (perm.mem_iff.mp hd) with rfl | old
          · exact hc
          · exact h.target d old
      split
      · exact added _ (List.Perm.refl _)
      · exact added _ (List.perm_append_singleton c l.targetList)

theorem removeFriend (h : Listed T F l) (c : CreatureId) :
    Listed T (fun d => F d ∧ d ≠ c) (l.removeFriend c) := by
  unfold Lists.removeFriend
  split
  · next listed =>
      refine ⟨h.targets_nodup, h.friends_nodup.erase c, fun d => ?_, h.target, fun d hd => ?_⟩
      · have := h.references d
        have one := List.count_pos_iff.mpr listed
        by_cases same : d = c
        · subst same
          simp [Lists.decrementReference, List.count_erase_self, this]
          omega
        · simp [Lists.decrementReference, Function.update_of_ne same, this,
            List.count_erase_of_ne same]
      · obtain ⟨other, old⟩ := (h.friends_nodup.mem_erase_iff).mp hd
        exact ⟨h.befriended d old, other⟩
  · next unlisted =>
      exact h.mono (fun _ _ => id) fun d hd hF => ⟨hF, fun same => unlisted (same ▸ hd)⟩

/-- An entry goes off the targets, which may be in another order. -/
theorem withoutTarget (h : Listed T F l) (listed : c ∈ l.targetList) :
    Listed (fun d => T d ∧ d ≠ c) F
      (({ l with targetList := l.targetList.erase c } : Lists).decrementReference c) := by
  refine ⟨h.targets_nodup.erase c, h.friends_nodup, fun d => ?_, fun d hd => ?_, h.befriended⟩
  · have := h.references d
    have one := List.count_pos_iff.mpr listed
    by_cases same : d = c
    · subst same
      simp [Lists.decrementReference, List.count_erase_self, this]
      omega
    · simp [Lists.decrementReference, Function.update_of_ne same, this,
        List.count_erase_of_ne same]
  · obtain ⟨other, old⟩ := (h.targets_nodup.mem_erase_iff).mp hd
    exact ⟨h.target d old, other⟩

theorem removeTarget (h : Listed T F l) (c : CreatureId) :
    Listed (fun d => T d ∧ d ≠ c) F (l.removeTarget c) := by
  unfold Lists.removeTarget
  split
  · next listed => exact h.withoutTarget listed
  · next unlisted =>
      exact h.mono (fun d hd hT => ⟨hT, fun same => unlisted (same ▸ hd)⟩) fun _ _ => id

/-- The entries that are gone and the others. -/
theorem count_filter_add (list : List CreatureId) (gone : CreatureId → Bool) (c : CreatureId) :
    (list.filter gone).count c + (list.filter fun c => !gone c).count c = list.count c := by
  have perm := List.filter_append_perm gone list
  rw [← perm.count_eq c, List.count_append]

theorem eraseFriends (h : Listed T F l) (gone : CreatureId → Bool) :
    Listed T (fun c => F c ∧ gone c = false) (l.eraseFriends gone) := by
  refine ⟨h.targets_nodup, h.friends_nodup.filter _, fun c => ?_, h.target, fun c hc => ?_⟩
  · have split_ := count_filter_add l.friendList gone c
    have := h.references c
    simp only [Lists.eraseFriends]
    omega
  · obtain ⟨old, kept⟩ := List.mem_filter.mp hc
    exact ⟨h.befriended c old, by simpa using kept⟩

theorem eraseTargets (h : Listed T F l) (gone : CreatureId → Bool) :
    Listed (fun c => T c ∧ gone c = false) F (l.eraseTargets gone) := by
  refine ⟨h.targets_nodup.filter _, h.friends_nodup, fun c => ?_, fun c hc => ?_, h.befriended⟩
  · have split_ := count_filter_add l.targetList gone c
    have := h.references c
    simp only [Lists.eraseTargets]
    omega
  · obtain ⟨old, kept⟩ := List.mem_filter.mp hc
    exact ⟨h.target c old, by simpa using kept⟩

/-- A monster that goes idle has nothing in its lists. -/
theorem setIdle_true (h : Listed T F l) (alive : w.isAlive = true) :
    Listed T' F' (l.setIdle w true) := by
  unfold Lists.setIdle
  rw [alive]
  exact ((h.eraseTargets fun _ => true).eraseFriends fun _ => true).mono
    (fun _ _ hT => absurd hT.2 (by decide)) fun _ _ hF => absurd hF.2 (by decide)

theorem setIdle (h : Listed T F l) (idle : Bool) : Listed T F (l.setIdle w idle) := by
  cases alive : w.isAlive with
  | false =>
      unfold Lists.setIdle
      rw [alive]
      exact h
  | true =>
      cases idle with
      | true => exact h.setIdle_true alive
      | false =>
          unfold Lists.setIdle
          rw [alive]
          exact h

theorem updateIdleStatus (h : Listed T F l) : Listed T F (l.updateIdleStatus w) := h.setIdle _

theorem onCreatureFound (h : Listed T F l) (isFriend : w.isFriend c = true → F c)
    (isOpponent : w.isOpponent c = true → T c) (pushFront : Bool) :
    Listed T F (l.onCreatureFound w c pushFront) := by
  have friends : Listed T F (if w.isFriend c then l.addFriend c else l) := by
    split
    · next is => exact h.addFriend (isFriend is)
    · exact h
  unfold Lists.onCreatureFound
  refine Listed.updateIdleStatus ?_
  split
  · next is => exact friends.addTarget (isOpponent is) pushFront
  · exact friends

/-- A creature that leaves is taken off as what it is then. -/
theorem onCreatureLeave (h : Listed T F l) (c : CreatureId) :
    Listed (fun d => T d ∧ (d = c → w.isOpponent c = false))
      (fun d => F d ∧ (d = c → w.isFriend c = false)) (l.onCreatureLeave w c) := by
  have friends : Listed T (fun d => F d ∧ (d = c → w.isFriend c = false))
      (if w.isFriend c then l.removeFriend c else l) := by
    split
    · exact (h.removeFriend c).mono (fun _ _ => id) fun d _ hd => ⟨hd.1, fun same => absurd same hd.2⟩
    · next isnt => exact h.mono (fun _ _ => id) fun d _ hd => ⟨hd, fun _ => by simpa using isnt⟩
  unfold Lists.onCreatureLeave
  generalize (if w.isFriend c then l.removeFriend c else l) = l' at friends
  dsimp only
  split
  · have targets : Listed (fun d => T d ∧ (d = c → w.isOpponent c = false))
        (fun d => F d ∧ (d = c → w.isFriend c = false)) (l'.removeTarget c) :=
      (friends.removeTarget c).mono (fun d _ hd => ⟨hd.1, fun same => absurd same hd.2⟩)
        fun _ _ => id
    split
    · exact targets.updateIdleStatus
    · exact targets
  · next isnt => exact friends.mono (fun d _ hd => ⟨hd, fun _ => by simpa using isnt⟩) fun _ _ => id

/-- Looking around keeps the entries that are not gone, and finds who is in view. -/
theorem updateTargetList {spectators : List CreatureId} (h : Listed T F l)
    (target : ∀ c, T c → w.isGone c = false → T' c)
    (befriended : ∀ c, F c → w.isGone c = false → F' c)
    (found : ∀ c ∈ spectators, w.canSee (w.creature c).position = true →
      (w.isOpponent c = true → T' c) ∧ (w.isFriend c = true → F' c)) :
    Listed T' F' (l.updateTargetList w spectators) := by
  have all : ∀ (spectators : List CreatureId) (l : Lists), Listed T' F' l →
      (∀ c ∈ spectators, w.canSee (w.creature c).position = true →
        (w.isOpponent c = true → T' c) ∧ (w.isFriend c = true → F' c)) →
      Listed T' F' (spectators.foldl (fun l spectator =>
        if w.canSee (w.creature spectator).position then l.onCreatureFound w spectator false
        else l) l) := by
    intro spectators
    induction spectators with
    | nil => exact fun l h _ => h
    | cons a spectators ih =>
        intro l h found
        refine ih _ ?_ fun c hc => found c (List.mem_cons_of_mem _ hc)
        dsimp only
        split
        · next seen =>
            obtain ⟨opponent, friend_⟩ := found a List.mem_cons_self seen
            exact h.onCreatureFound friend_ opponent false
        · exact h
  refine all spectators _ ?_ found
  exact ((h.eraseFriends w.isGone).eraseTargets w.isGone).mono
    (fun c _ hc => target c hc.1 hc.2) fun c _ hc => befriended c hc.1 hc.2

theorem onFollowCreatureComplete (h : Listed T F l) (c : CreatureId) (hasFollowPath : Bool) :
    Listed T F (l.onFollowCreatureComplete w c hasFollowPath) := by
  have permuted : ∀ list : List CreatureId, list.Perm l.targetList →
      Listed T F { l with targetList := list } := fun list perm =>
    ⟨perm.nodup_iff.mpr h.targets_nodup, h.friends_nodup,
      fun c => by rw [perm.count_eq c]; exact h.references c,
      fun c hc => h.target c (perm.mem_iff.mp hc), h.befriended⟩
  unfold Lists.onFollowCreatureComplete
  split
  · next listed =>
      have front := (List.perm_cons_erase listed).symm
      split
      · exact permuted _ front
      · split
        · exact permuted _ ((List.perm_append_singleton c _).trans front)
        · exact (h.withoutTarget listed).mono (fun _ _ hd => hd.1) fun _ _ => id
  · exact h

end Listed

/-! ### The events of the monster -/

namespace Lists

variable {spectators : List CreatureId} {newPos oldPos : Position}

theorem onCreatureAppear_self (own : c = w.self) : l.onCreatureAppear w c spectators false =
    (l.updateTargetList w spectators).updateIdleStatus w := by
  unfold onCreatureAppear
  rw [if_neg (by decide), if_pos own]

theorem onCreatureAppear_other (other : c ≠ w.self) :
    l.onCreatureAppear w c spectators false = l.onCreatureFound w c true := by
  unfold onCreatureAppear onCreatureEnter
  rw [if_neg (by decide), if_neg other]

theorem onRemoveCreature_self (own : c = w.self) :
    l.onRemoveCreature w c false = l.setIdle w true := by
  unfold onRemoveCreature
  rw [if_neg (by decide), if_pos own]

theorem onRemoveCreature_other (other : c ≠ w.self) :
    l.onRemoveCreature w c false = l.onCreatureLeave w c := by
  unfold onRemoveCreature
  rw [if_neg (by decide), if_neg other]

theorem onCreatureMove_self (own : c = w.self) :
    l.onCreatureMove w c newPos oldPos spectators false =
      (l.updateTargetList w spectators).updateIdleStatus w := by
  unfold onCreatureMove
  rw [if_neg (by decide), if_pos own]

/-- A creature that moves into view enters, one that moves out of view leaves. -/
theorem onCreatureMove_other (other : c ≠ w.self) :
    l.onCreatureMove w c newPos oldPos spectators false =
      (if w.canSee newPos && !w.canSee oldPos then l.onCreatureFound w c true
        else if !w.canSee newPos && w.canSee oldPos then l.onCreatureLeave w c
        else l).updateIdleStatus w := by
  unfold onCreatureMove onCreatureEnter
  rw [if_neg (by decide), if_neg other]

end Lists

/-! ### Who is in view and on which side -/

namespace Surroundings

theorem setCreature_creature (w : Surroundings) (c d : CreatureId) (creature : Creature) :
    (w.setCreature c creature).creature d = if d = c then creature else w.creature d := by
  unfold setCreature
  exact Function.update_apply ..

def InView (w : Surroundings) (c : CreatureId) : Prop :=
  c ≠ w.self ∧ w.canSee (w.creature c).position = true ∧ (w.creature c).present = true

def Target (w : Surroundings) (c : CreatureId) : Prop := w.isOpponent c = true ∧ w.InView c

def Befriended (w : Surroundings) (c : CreatureId) : Prop := w.isFriend c = true ∧ w.InView c

/-- Nothing is changed that the side of a creature depends on. -/
structure SameSide (w w' : Surroundings) (d : CreatureId) : Prop where
  self : w'.self = w.self
  kind : ∀ c, (w'.creature c).kind = (w.creature c).kind
  party : ∀ c, (w'.creature c).party = (w.creature c).party
  own : (w'.creature w.self).master = (w.creature w.self).master
  master : (w'.creature d).master = (w.creature d).master

theorem SameSide.same_classes (h : SameSide w w' d) :
    w'.isFriend d = w.isFriend d ∧ w'.isOpponent d = w.isOpponent d := by
  have player : w'.isPlayer = w.isPlayer := by
    funext c
    unfold isPlayer
    rw [h.kind]
  have own : w'.masterPlayer w'.self = w.masterPlayer w.self := by
    unfold masterPlayer
    rw [h.self, h.own, player]
  have master : w'.masterPlayer d = w.masterPlayer d := by
    unfold masterPlayer
    rw [h.master, player]
  have partner : w'.isPartner = w.isPartner := by
    funext c d
    unfold isPartner
    rw [h.party, h.party]
  constructor
  · unfold isFriend isMonster isSummon
    rw [own, master, player, partner, h.kind, h.master]
  · unfold isOpponent
    rw [own, master, h.kind]

theorem SameSide.of_eq (self : w'.self = w.self)
    (kind : ∀ c, (w'.creature c).kind = (w.creature c).kind)
    (party : ∀ c, (w'.creature c).party = (w.creature c).party)
    (master : ∀ c, (w'.creature c).master = (w.creature c).master) : SameSide w w' d :=
  ⟨self, kind, party, master _, master _⟩

/-- A creature that is seen is near enough to be heard of. -/
theorem isSpectator_of_canSeeFrom {myPos pos : Position} (seen : canSeeFrom myPos pos 10 10 = true)
    (mine : myPos.z < mapLayers) (its : pos.z < mapLayers) : isSpectator pos myPos = true := by
  unfold canSeeFrom at seen
  unfold isSpectator SpectatorWindow.contains SpectatorQuery.window SpectatorQuery.floors
    SpectatorQuery.lowX SpectatorQuery.highX SpectatorQuery.lowY SpectatorQuery.highY
  simp only [maxViewportX, maxViewportY, mapLayers] at *
  simp only [Bool.and_eq_true, decide_eq_true_eq, Bool.not_eq_true', Bool.or_eq_false_iff,
    decide_eq_false_iff_not, if_true] at seen ⊢
  obtain ⟨⟨⟨⟨below, lowX⟩, highX⟩, lowY⟩, highY⟩ := seen
  refine ⟨decide_eq_true its, ⟨?_, ?_⟩, ⟨⟨?_, ?_⟩, ?_⟩, ?_⟩
  all_goals split_ifs at below ⊢ <;> simp only [decide_eq_true_eq] at below ⊢ <;> omega

theorem place_other (w : Surroundings) {c d : CreatureId} (pos : Position) (other : d ≠ c) :
    (w.place c pos).creature d = w.creature d :=
  (w.setCreature_creature c d _).trans (if_neg other)

/-! ### What a removal changes -/

theorem setMaster_creature (w : Surroundings) (c d : CreatureId) (master : Option CreatureId) :
    (w.setMaster c master).creature d =
      if d = c then { w.creature c with master } else w.creature d :=
  w.setCreature_creature c d _

theorem setMaster_same (w : Surroundings) (c : CreatureId) :
    w.setMaster c (w.creature c).master = w := by
  unfold setMaster setCreature
  rw [Function.update_eq_self]

theorem clearMaster_eq (w : Surroundings) (c : CreatureId) :
    ∃ master, w.clearMaster c = w.setMaster c master := by
  unfold clearMaster
  split
  · split
    · exact ⟨none, rfl⟩
    · exact ⟨_, (w.setMaster_same c).symm⟩
  · exact ⟨_, (w.setMaster_same c).symm⟩

theorem removing_eq (w : Surroundings) (c : CreatureId) (ownFirst : Bool) :
    ∃ master, w.removing c ownFirst = w.setMaster c master := by
  unfold removing
  split
  · exact w.clearMaster_eq c
  · exact ⟨_, (w.setMaster_same c).symm⟩

theorem remove_eq (w : Surroundings) (c : CreatureId) :
    ∃ master, ∀ d, (w.remove c).creature d =
      if d = c then { w.creature c with master, present := false } else w.creature d := by
  obtain ⟨master, cleared⟩ := w.clearMaster_eq c
  refine ⟨master, fun d => ?_⟩
  unfold remove
  rw [cleared, setCreature_creature, setMaster_creature, setMaster_creature, if_pos rfl]
  split_ifs <;> rfl

theorem remove_self (w : Surroundings) (c : CreatureId) : (w.remove c).self = w.self := by
  obtain ⟨master, cleared⟩ := w.clearMaster_eq c
  unfold remove
  rw [cleared]
  rfl

/-- The creatures that stay keep their sides and their places. -/
theorem remove_others (w : Surroundings) {c d : CreatureId} (self : c ≠ w.self) (other : d ≠ c) :
    SameSide w (w.remove c) d ∧ (w.remove c).creature d = w.creature d := by
  obtain ⟨master, removed⟩ := w.remove_eq c
  have same : ∀ d, d ≠ c → (w.remove c).creature d = w.creature d :=
    fun d other => (removed d).trans (if_neg other)
  refine ⟨⟨w.remove_self c, fun e => ?_, fun e => ?_, ?_, ?_⟩, same d other⟩
  · rw [removed]
    split_ifs with here
    · rw [here]
    · rfl
  · rw [removed]
    split_ifs with here
    · rw [here]
    · rfl
  · rw [same _ self.symm]
  · rw [same d other]

/-- A creature that is written keeps its side. -/
theorem setCreature_side (w : Surroundings) (c d : CreatureId) {creature : Creature}
    (kind : creature.kind = (w.creature c).kind) (party : creature.party = (w.creature c).party)
    (master : creature.master = (w.creature c).master) : SameSide w (w.setCreature c creature) d := by
  refine .of_eq rfl (fun e => ?_) (fun e => ?_) fun e => ?_
  · rw [setCreature_creature]
    split_ifs with here
    · rw [here, kind]
    · rfl
  · rw [setCreature_creature]
    split_ifs with here
    · rw [here, party]
    · rfl
  · rw [setCreature_creature]
    split_ifs with here
    · rw [here, master]
    · rfl

/-- A creature on the map stands on a floor. -/
def Grounded (w : Surroundings) : Prop :=
  ∀ c, (w.creature c).present = true → (w.creature c).position.z < mapLayers

/-- Who is in view is heard of. -/
theorem Grounded.isTold (h : w.Grounded) (placed : (w.creature w.self).present = true)
    (view : w.InView c) : w.isTold (w.creature c).position = true := by
  unfold Surroundings.isTold
  rw [placed]
  exact isSpectator_of_canSeeFrom view.2.1 (h _ placed) (h _ view.2.2)

/-- What happens to the monster itself it is told. -/
theorem Grounded.isTold_self (h : w.Grounded) (placed : (w.creature w.self).present = true) :
    w.isTold (w.creature w.self).position = true := by
  have seen : canSeeFrom (w.creature w.self).position (w.creature w.self).position 10 10 = true := by
    unfold canSeeFrom
    split_ifs
    · simp
      omega
    · simp
  unfold Surroundings.isTold
  rw [placed]
  exact isSpectator_of_canSeeFrom seen (h _ placed) (h _ placed)

theorem Target.of_same (h : w.Target d) (side : SameSide w w' d)
    (own : (w'.creature w.self).position = (w.creature w.self).position)
    (same : (w'.creature d).position = (w.creature d).position ∧
      (w'.creature d).present = (w.creature d).present) : w'.Target d := by
  refine ⟨side.same_classes.2.trans h.1, side.self ▸ h.2.1, ?_, same.2.trans h.2.2.2⟩
  unfold canSee
  rw [side.self, own, same.1]
  exact h.2.2.1

theorem Befriended.of_same (h : w.Befriended d) (side : SameSide w w' d)
    (own : (w'.creature w.self).position = (w.creature w.self).position)
    (same : (w'.creature d).position = (w.creature d).position ∧
      (w'.creature d).present = (w.creature d).present) : w'.Befriended d := by
  refine ⟨side.same_classes.1.trans h.1, side.self ▸ h.2.1, ?_, same.2.trans h.2.2.2⟩
  unfold canSee
  rw [side.self, own, same.1]
  exact h.2.2.1

end Surroundings

namespace State

variable {s : State}

/-! ### When the lists stay right -/

/-- The creatures that are listed are still on their sides. -/
def Sided (s : State) (w : Surroundings) : Prop :=
  (∀ d ∈ s.lists.targetList, w.isOpponent d = true) ∧
    ∀ d ∈ s.lists.friendList, w.isFriend d = true

/-- The creatures that are listed are in view. -/
def Seen (s : State) (w : Surroundings) : Prop :=
  ∀ d, d ∈ s.lists.targetList ∨ d ∈ s.lists.friendList → w.canSee (w.creature d).position = true

def Listing (s : State) (c : CreatureId) : Prop :=
  c ∈ s.lists.targetList ∨ c ∈ s.lists.friendList

/-- The monster would go idle. -/
def Idles (s : State) (w : Surroundings) : Prop :=
  w.isAlive = true ∧ w.hasConditions = false ∧ w.isSummon w.self = false ∧ s.lists.targetList = []

/-- The monster looks around when the creature is convinced. -/
def looks (w : Surroundings) (c convincer : CreatureId) : Bool :=
  c == w.self || ((w.isTold (w.creature c).position || w.isTold (w.creature convincer).position) &&
    w.minds convincer c)

/-- No creature is noticed that is out of view, and none that is listed goes unnoticed or changes
sides, but the dead ones when the monster looks around. -/
def keeps (s : State) : Event → Prop
  | .place c pos _ handled =>
      let w := s.around.place c pos
      if c = s.around.self then handled = false ∨ s.Seen w
      else handled = true ∨ w.isTold pos = false ∨ w.canSee pos = true ∨
        (w.isOpponent c = false ∧ (w.isFriend c = false ∨ s.Idles w))
  | .remove c ownFirst handled =>
      let w := s.around.removing c ownFirst
      if c = s.around.self then (handled = false ∧ w.isAlive = true) ∨ s.Sided (s.around.remove c)
      else ¬s.Listing c ∨ (handled = false ∧ (s.around.creature s.around.self).present = true ∧
        (c ∈ s.lists.targetList → w.isOpponent c = true) ∧
        (c ∈ s.lists.friendList → w.isFriend c = true))
  | .move c newPos _ handled =>
      if c = s.around.self then handled = false ∨ s.Seen (s.around.move c newPos)
      else (s.Listing c → s.around.canSee newPos = true) ∨
        (handled = false ∧ (s.around.creature s.around.self).present = true)
  | .setMaster c master => s.Sided (s.around.setMaster c master)
  | .setParty c party => s.Sided (s.around.setCreature c { s.around.creature c with party })
  | .convince c convincer _ _ =>
      let w := s.around.convinced c convincer
      s.around.resists c convincer = true ∨
        ((∀ d ∈ s.lists.targetList, (looks w c convincer = true → 0 < (w.creature d).health) →
            w.isOpponent d = true) ∧
          ∀ d ∈ s.lists.friendList, (looks w c convincer = true → 0 < (w.creature d).health) →
            w.isFriend d = true)
  | _ => True

/-! ### The invariant -/

structure Inv (s : State) : Prop where
  grounded : s.around.Grounded
  aware : Listed s.around.Target s.around.Befriended s.lists

/-- The entries with what they were, and that they are entries. -/
theorem Inv.entries (h : s.Inv) :
    Listed (fun d => s.around.Target d ∧ d ∈ s.lists.targetList)
      (fun d => s.around.Befriended d ∧ d ∈ s.lists.friendList) s.lists :=
  h.aware.mono (fun _ hd hT => ⟨hT, hd⟩) fun _ hd hF => ⟨hF, hd⟩

theorem Inv.view (h : s.Inv) (listing : s.Listing c) : s.around.InView c :=
  listing.elim (fun hc => (h.aware.target c hc).2) fun hc => (h.aware.befriended c hc).2

/-- The monster looks around: what is listed afterwards is as it should be, if the entries that are
not gone are on the right side. -/
theorem aware_updateTargetList {spectators : List CreatureId} {T F : CreatureId → Prop}
    (h : Listed T F l) (finds : w.Finds spectators)
    (target : ∀ d, T d → w.isGone d = false → w.isOpponent d = true ∧ d ≠ w.self ∧
      (w.creature d).present = true)
    (befriended : ∀ d, F d → w.isGone d = false → w.isFriend d = true ∧ d ≠ w.self ∧
      (w.creature d).present = true) :
    Listed w.Target w.Befriended ((l.updateTargetList w spectators).updateIdleStatus w) := by
  have seen : ∀ d, w.isGone d = false → w.canSee (w.creature d).position = true := by
    intro d kept
    unfold Surroundings.isGone at kept
    simpa using (Bool.or_eq_false_iff.mp kept).2
  refine Listed.updateIdleStatus (h.updateTargetList (fun d hd kept => ?_) (fun d hd kept => ?_)
    fun d hd view => ?_)
  · obtain ⟨side, other, present⟩ := target d hd kept
    exact ⟨side, other, seen d kept, present⟩
  · obtain ⟨side, other, present⟩ := befriended d hd kept
    exact ⟨side, other, seen d kept, present⟩
  · obtain ⟨other, present, -⟩ := (finds d).mp hd
    exact ⟨fun side => ⟨side, other, view, present⟩, fun side => ⟨side, other, view, present⟩⟩

/-! ### The events -/

theorem grounded_setCreature (h : w.Grounded) {creature : Creature}
    (floor : creature.present = true → creature.position.z < mapLayers) :
    (w.setCreature c creature).Grounded := by
  intro d present
  rw [Surroundings.setCreature_creature] at present ⊢
  split_ifs at present ⊢
  · exact floor present
  · exact h d present

/-- Where a creature that is not listed is written, the entries stay as they are. -/
theorem Inv.written (h : s.Inv) {creature : Creature} (self : c ≠ s.around.self)
    (kind : creature.kind = (s.around.creature c).kind)
    (party : creature.party = (s.around.creature c).party)
    (master : creature.master = (s.around.creature c).master)
    (unlisted : ¬s.Listing c ∨ (creature.present = (s.around.creature c).present ∧
      s.around.canSee creature.position = true)) :
    Listed (s.around.setCreature c creature).Target (s.around.setCreature c creature).Befriended
      s.lists := by
  have view : ∀ d, s.Listing d → s.around.InView d →
      (s.around.setCreature c creature).InView d := by
    intro d listing view
    have own : (s.around.setCreature c creature).creature s.around.self =
        s.around.creature s.around.self := by
      rw [Surroundings.setCreature_creature, if_neg self.symm]
    refine ⟨view.1, ?_, ?_⟩
    · unfold Surroundings.canSee
      change canSeeFrom ((s.around.setCreature c creature).creature s.around.self).position _ _ _ = _
      rw [own, Surroundings.setCreature_creature]
      split_ifs with here
      · exact (unlisted.resolve_left fun no => no (here ▸ listing)).2
      · exact view.2.1
    · rw [Surroundings.setCreature_creature]
      split_ifs with here
      · rw [(unlisted.resolve_left fun no => no (here ▸ listing)).1, ← here]
        exact view.2.2
      · exact view.2.2
  have side : ∀ d, Surroundings.SameSide s.around (s.around.setCreature c creature) d :=
    fun d => s.around.setCreature_side c d kind party master
  exact h.aware.mono (fun d hd hT => ⟨(side d).same_classes.2.trans hT.1, view d (.inl hd) hT.2⟩)
    fun d hd hF => ⟨(side d).same_classes.1.trans hF.1, view d (.inr hd) hF.2⟩

/-- A friend that makes an idle monster idle again is forgotten. -/
theorem found_idle {T F : CreatureId → Prop} (h : Listed T F l) {c : CreatureId}
    (opponent : w.isOpponent c = false)
    (alive : w.isAlive = true) (conditions : w.hasConditions = false)
    (summon : w.isSummon w.self = false) (empty : l.targetList = []) (pushFront : Bool)
    {T' F' : CreatureId → Prop} : Listed T' F' (l.onCreatureFound w c pushFront) := by
  have friends : Listed T (fun _ => True) (if w.isFriend c then l.addFriend c else l) := by
    split
    · exact (h.mono (fun _ _ => id) fun _ _ _ => trivial).addFriend trivial
    · exact h.mono (fun _ _ => id) fun _ _ _ => trivial
  have targets : (if w.isFriend c then l.addFriend c else l).targetList = [] := by
    unfold Lists.addFriend
    split_ifs
    · exact empty
    · exact empty
    · exact empty
  unfold Lists.onCreatureFound Lists.updateIdleStatus
  generalize (if w.isFriend c then l.addFriend c else l) = l' at friends targets
  simp only [opponent, Bool.false_eq_true, if_false, conditions, summon, targets, List.isEmpty_nil,
    Bool.not_false, Bool.and_self]
  exact friends.setIdle_true alive

theorem Inv.place (h : s.Inv) {pos : Position} {spectators : List CreatureId} {handled : Bool}
    (possible : s.possible (.place c pos spectators handled))
    (keeps : s.keeps (.place c pos spectators handled)) :
    (s.placeCreature c pos spectators handled).Inv := by
  obtain ⟨floor, finds⟩ := possible
  unfold placeCreature
  split
  · exact h
  · next absent =>
      have unlisted : ¬s.Listing c := fun listing => absent (h.view listing).2.2
      have grounded : (s.around.place c pos).Grounded :=
        grounded_setCreature h.grounded fun _ => floor
      have side : ∀ d, Surroundings.SameSide s.around (s.around.place c pos) d :=
        fun d => s.around.setCreature_side c d rfl rfl rfl
      have others : ∀ d, d ≠ c → (s.around.place c pos).creature d = s.around.creature d :=
        fun d other => s.around.place_other pos other
      refine ⟨grounded, ?_⟩
      dsimp only
      by_cases self : c = s.around.self
      · -- the monster itself: it looks around, or sees its entries from where it is now
        subst self
        have keeps : handled = false ∨ s.Seen (s.around.place s.around.self pos) := by
          simpa only [State.keeps, if_true] using keeps
        have aware : ∀ d, s.Listing d → (s.around.place s.around.self pos).creature d =
            s.around.creature d := fun d listing => others d fun same => unlisted (same ▸ listing)
        have stays : s.Seen (s.around.place s.around.self pos) →
            Listed (s.around.place s.around.self pos).Target
              (s.around.place s.around.self pos).Befriended s.lists := fun seen =>
          h.aware.mono
            (fun d hd hT => ⟨(side d).same_classes.2.trans hT.1, hT.2.1, seen d (.inl hd),
              by rw [aware d (.inl hd)]; exact hT.2.2.2⟩)
            fun d hd hF => ⟨(side d).same_classes.1.trans hF.1, hF.2.1, seen d (.inr hd),
              by rw [aware d (.inr hd)]; exact hF.2.2.2⟩
        have told : (s.around.place s.around.self pos).isTold pos = true := by
          have placed : (s.around.place s.around.self pos).creature s.around.self =
              { s.around.creature s.around.self with position := pos, present := true } :=
            (s.around.setCreature_creature _ _ _).trans (if_pos rfl)
          have told := grounded.isTold_self (by
            change ((s.around.place s.around.self pos).creature s.around.self).present = true
            rw [placed])
          change (s.around.place s.around.self pos).isTold
            ((s.around.place s.around.self pos).creature s.around.self).position = true at told
          rwa [placed] at told
        rw [if_pos told]
        cases handled with
        | true => exact stays (keeps.resolve_left (by decide))
        | false =>
            have own : s.around.self = (s.around.place s.around.self pos).self := rfl
            rw [Lists.onCreatureAppear_self own]
            refine aware_updateTargetList h.entries finds (fun d hd _ => ?_) fun d hd _ => ?_
            · rw [aware d (.inl hd.2)]
              exact ⟨(side d).same_classes.2.trans hd.1.1, hd.1.2.1, hd.1.2.2.2⟩
            · rw [aware d (.inr hd.2)]
              exact ⟨(side d).same_classes.1.trans hd.1.1, hd.1.2.1, hd.1.2.2.2⟩
      · have aware : Listed (s.around.place c pos).Target (s.around.place c pos).Befriended
            s.lists := h.written self rfl rfl rfl (.inl unlisted)
        have apart : c ≠ (s.around.place c pos).self := self
        have placed : (s.around.place c pos).creature c =
            { s.around.creature c with position := pos, present := true } :=
          (s.around.setCreature_creature c c _).trans (if_pos rfl)
        split
        · next told =>
            cases handled with
            | true => exact aware
            | false =>
                rw [Lists.onCreatureAppear_other apart]
                have keeps : (s.around.place c pos).isTold pos = false ∨
                    (s.around.place c pos).canSee pos = true ∨
                    ((s.around.place c pos).isOpponent c = false ∧
                      ((s.around.place c pos).isFriend c = false ∨
                        s.Idles (s.around.place c pos))) := by
                  simpa only [State.keeps, if_neg self, Bool.false_eq_true, false_or] using keeps
                rcases keeps with untold | seen | ⟨opponent, stranger | idle⟩
                · rw [told] at untold
                  cases untold
                · have view : (s.around.place c pos).InView c :=
                    ⟨apart, by rw [placed]; exact seen, by rw [placed]⟩
                  exact aware.onCreatureFound (fun side => ⟨side, view⟩) (fun side => ⟨side, view⟩) true
                · refine aware.onCreatureFound (fun side => ?_) (fun side => ?_) true
                  · rw [stranger] at side
                    cases side
                  · rw [opponent] at side
                    cases side
                · exact found_idle aware opponent idle.1 idle.2.1 idle.2.2.1 idle.2.2.2 true
        · exact aware

/-- A creature out of which nothing is seen any more is no entry; the others stay. -/
theorem Inv.remove (h : s.Inv) {ownFirst handled : Bool}
    (keeps : s.keeps (.remove c ownFirst handled)) :
    (s.removeCreature c ownFirst handled).Inv := by
  unfold removeCreature
  split
  · exact h
  · next there =>
      have present : (s.around.creature c).present = true := by simpa using there
      obtain ⟨master, removed⟩ := s.around.remove_eq c
      refine ⟨fun d on => ?_, ?_⟩
      · dsimp only at on ⊢
        rw [removed] at on ⊢
        split_ifs at on ⊢ with here
        exact h.grounded d on
      dsimp only
      by_cases self : c = s.around.self
      · subst self
        have keeps : (handled = false ∧
            (s.around.removing s.around.self ownFirst).isAlive = true) ∨
            s.Sided (s.around.remove s.around.self) := by
          simpa only [State.keeps, if_true] using keeps
        have own : s.around.self = (s.around.removing s.around.self ownFirst).self := by
          obtain ⟨master, same⟩ := s.around.removing_eq s.around.self ownFirst
          rw [same]
          rfl
        rw [if_pos (h.grounded.isTold_self present)]
        rcases keeps with ⟨rfl, alive⟩ | ⟨targets, friends⟩
        · rw [Lists.onRemoveCreature_self own]
          exact h.aware.setIdle_true alive
        · -- the lists are as they were, or empty
          have view : ∀ d, s.around.InView d → (s.around.remove s.around.self).InView d := by
            intro d view
            have same : (s.around.remove s.around.self).creature d = s.around.creature d :=
              (removed d).trans (if_neg view.1)
            refine ⟨(s.around.remove_self _).symm ▸ view.1, ?_, same ▸ view.2.2⟩
            unfold Surroundings.canSee
            rw [s.around.remove_self, same, removed, if_pos rfl]
            exact view.2.1
          have stays : Listed (s.around.remove s.around.self).Target
              (s.around.remove s.around.self).Befriended s.lists :=
            h.aware.mono (fun d hd hT => ⟨targets d hd, view d hT.2⟩)
              fun d hd hF => ⟨friends d hd, view d hF.2⟩
          cases handled with
          | true => exact stays
          | false =>
              rw [Lists.onRemoveCreature_self own]
              exact stays.setIdle true
      · have others : ∀ d, d ≠ c → Surroundings.SameSide s.around (s.around.remove c) d ∧
            (s.around.remove c).creature d = s.around.creature d :=
          fun d other => s.around.remove_others self other
        have own : ((s.around.remove c).creature s.around.self).position =
            (s.around.creature s.around.self).position := by rw [(others _ (Ne.symm self)).2]
        have target : ∀ d, d ≠ c → s.around.Target d → (s.around.remove c).Target d :=
          fun d other hT => hT.of_same (others d other).1 own (by rw [(others d other).2]; exact ⟨rfl, rfl⟩)
        have befriended : ∀ d, d ≠ c → s.around.Befriended d → (s.around.remove c).Befriended d :=
          fun d other hF => hF.of_same (others d other).1 own (by rw [(others d other).2]; exact ⟨rfl, rfl⟩)
        have apart : c ≠ (s.around.removing c ownFirst).self := by
          obtain ⟨master, same⟩ := s.around.removing_eq c ownFirst
          rw [same]
          exact self
        have stays : ¬s.Listing c → Listed (s.around.remove c).Target (s.around.remove c).Befriended
            s.lists := fun unlisted =>
          h.aware.mono (fun d hd => target d fun same => unlisted (.inl (same ▸ hd)))
            fun d hd => befriended d fun same => unlisted (.inr (same ▸ hd))
        have leaves : (c ∈ s.lists.targetList → (s.around.removing c ownFirst).isOpponent c = true) →
            (c ∈ s.lists.friendList → (s.around.removing c ownFirst).isFriend c = true) →
            Listed (s.around.remove c).Target (s.around.remove c).Befriended
              (s.lists.onCreatureLeave (s.around.removing c ownFirst) c) := fun opponent friend_ =>
          (h.entries.onCreatureLeave (w := s.around.removing c ownFirst) c).mono
            (fun d _ hd => target d (fun same => by
              have side := opponent (same ▸ hd.1.2)
              rw [hd.2 same] at side
              cases side) hd.1.1)
            fun d _ hd => befriended d (fun same => by
              have side := friend_ (same ▸ hd.1.2)
              rw [hd.2 same] at side
              cases side) hd.1.1
        have keeps : ¬s.Listing c ∨ (handled = false ∧
            (s.around.creature s.around.self).present = true ∧
            (c ∈ s.lists.targetList → (s.around.removing c ownFirst).isOpponent c = true) ∧
            (c ∈ s.lists.friendList → (s.around.removing c ownFirst).isFriend c = true)) := by
          simpa only [State.keeps, if_neg self] using keeps
        split
        · next told =>
            cases handled with
            | true => exact stays (keeps.resolve_right fun no => absurd no.1 (by decide))
            | false =>
                rw [Lists.onRemoveCreature_other apart]
                rcases keeps with unlisted | ⟨-, -, opponent, friend_⟩
                · exact leaves (fun hc => absurd (.inl hc) unlisted) fun hc => absurd (.inr hc) unlisted
                · exact leaves opponent friend_
        · next untold =>
            -- who is listed is in view, and a monster that is there is told
            refine stays fun listing => ?_
            obtain ⟨-, placed, -, -⟩ := keeps.resolve_left fun no => no listing
            exact untold (h.grounded.isTold placed (h.view listing))

theorem Inv.move (h : s.Inv) {newPos : Position} {spectators : List CreatureId} {handled : Bool}
    (possible : s.possible (.move c newPos spectators handled))
    (keeps : s.keeps (.move c newPos spectators handled)) :
    (s.moveCreature c newPos spectators handled).Inv := by
  obtain ⟨floor, finds⟩ := possible
  unfold moveCreature
  split
  · exact h
  · next there =>
      have present : (s.around.creature c).present = true := by simpa using there
      have grounded : (s.around.move c newPos).Grounded :=
        grounded_setCreature h.grounded fun _ => floor
      have side : ∀ d, Surroundings.SameSide s.around (s.around.move c newPos) d :=
        fun d => s.around.setCreature_side c d rfl rfl rfl
      have others : ∀ d, d ≠ c → (s.around.move c newPos).creature d = s.around.creature d :=
        fun d other => (s.around.setCreature_creature c d _).trans (if_neg other)
      have moved : (s.around.move c newPos).creature c =
          { s.around.creature c with position := newPos } :=
        (s.around.setCreature_creature c c _).trans (if_pos rfl)
      refine ⟨grounded, ?_⟩
      dsimp only
      by_cases self : c = s.around.self
      · subst self
        have keeps : handled = false ∨ s.Seen (s.around.move s.around.self newPos) := by
          simpa only [State.keeps, if_true] using keeps
        rw [h.grounded.isTold_self present, Bool.true_or, if_pos rfl]
        cases handled with
        | true =>
            have seen := keeps.resolve_left (by decide)
            exact h.aware.mono
              (fun d hd hT => ⟨(side d).same_classes.2.trans hT.1, hT.2.1, seen d (.inl hd),
                by rw [others d hT.2.1]; exact hT.2.2.2⟩)
              fun d hd hF => ⟨(side d).same_classes.1.trans hF.1, hF.2.1, seen d (.inr hd),
                by rw [others d hF.2.1]; exact hF.2.2.2⟩
        | false =>
            have own : s.around.self = (s.around.move s.around.self newPos).self := rfl
            rw [Lists.onCreatureMove_self own]
            refine aware_updateTargetList h.aware finds (fun d hT _ => ?_) fun d hF _ => ?_
            · rw [others d hT.2.1]
              exact ⟨(side d).same_classes.2.trans hT.1, hT.2.1, hT.2.2.2⟩
            · rw [others d hF.2.1]
              exact ⟨(side d).same_classes.1.trans hF.1, hF.2.1, hF.2.2.2⟩
      · have apart : c ≠ (s.around.move c newPos).self := self
        have stays : (s.Listing c → s.around.canSee newPos = true) →
            Listed (s.around.move c newPos).Target (s.around.move c newPos).Befriended s.lists := by
          intro seen
          by_cases listing : s.Listing c
          · exact h.written self rfl rfl rfl (.inr ⟨rfl, seen listing⟩)
          · exact h.written self rfl rfl rfl (.inl listing)
        have sees : ∀ pos, (s.around.move c newPos).canSee pos = s.around.canSee pos := by
          intro pos
          unfold Surroundings.canSee
          change canSeeFrom ((s.around.move c newPos).creature s.around.self).position pos 10 10 = _
          rw [others _ (Ne.symm self)]
        have keeps : (s.Listing c → s.around.canSee newPos = true) ∨
            (handled = false ∧ (s.around.creature s.around.self).present = true) := by
          simpa only [State.keeps, if_neg self] using keeps
        have viewed : s.Listing c → s.around.canSee (s.around.creature c).position = true :=
          fun listing => (h.view listing).2.1
        split
        · next told =>
            cases handled with
            | true => exact stays (keeps.resolve_right fun no => absurd no.1 (by decide))
            | false =>
                rw [Lists.onCreatureMove_other apart, sees, sees]
                refine Listed.updateIdleStatus ?_
                cases new : s.around.canSee newPos with
                | true =>
                    have aware := stays fun _ => new
                    have view : (s.around.move c newPos).InView c :=
                      ⟨apart, by rw [moved, sees, new], by rw [moved]; exact present⟩
                    split
                    · exact aware.onCreatureFound (fun side => ⟨side, view⟩) (fun side => ⟨side, view⟩)
                        true
                    · exact aware
                | false =>
                    cases old : s.around.canSee (s.around.creature c).position with
                    | false =>
                        refine stays fun listing => ?_
                        rw [viewed listing] at old
                        cases old
                    | true =>
                        -- what it is has not changed, so that it is taken off
                        have left := h.aware.onCreatureLeave (w := s.around.move c newPos) c
                        have same : ∀ d, d ≠ c → ((s.around.move c newPos).creature d).position =
                            (s.around.creature d).position ∧
                            ((s.around.move c newPos).creature d).present =
                              (s.around.creature d).present :=
                          fun d other => by rw [others d other]; exact ⟨rfl, rfl⟩
                        have own := (same _ (Ne.symm self)).1
                        refine left.mono (fun d _ hd => ?_) fun d _ hd => ?_
                        · refine hd.1.of_same (side d) own (same d fun here => ?_)
                          have opponent := hd.2 here
                          rw [(side c).same_classes.2, ← here, hd.1.1] at opponent
                          cases opponent
                        · refine hd.1.of_same (side d) own (same d fun here => ?_)
                          have friend_ := hd.2 here
                          rw [(side c).same_classes.1, ← here, hd.1.1] at friend_
                          cases friend_
        · next untold =>
            refine stays fun listing => ?_
            rcases keeps with seen | ⟨-, placed⟩
            · exact seen listing
            · rw [h.grounded.isTold placed (h.view listing)] at untold
              exact absurd rfl untold

/-- Creatures change their sides where the lists do not know. -/
theorem Inv.sided (h : s.Inv) {w : Surroundings} (self : w.self = s.around.self)
    (place : ∀ d, (w.creature d).position = (s.around.creature d).position ∧
      (w.creature d).present = (s.around.creature d).present) {T F : CreatureId → Prop}
    (target : ∀ d ∈ s.lists.targetList, w.InView d → T d)
    (befriended : ∀ d ∈ s.lists.friendList, w.InView d → F d) :
    w.Grounded ∧ Listed T F s.lists := by
  have view : ∀ d, s.around.InView d → w.InView d := by
    intro d view
    refine ⟨self ▸ view.1, ?_, (place d).2.trans view.2.2⟩
    unfold Surroundings.canSee
    rw [self, (place _).1, (place _).1]
    exact view.2.1
  refine ⟨fun d on => ?_, h.aware.mono (fun d hd hT => target d hd (view d hT.2))
    fun d hd hF => befriended d hd (view d hF.2)⟩
  rw [(place d).1]
  exact h.grounded d ((place d).2.symm.trans on)

theorem Inv.reclassified (h : s.Inv) {creature : Creature}
    (position : creature.position = (s.around.creature c).position)
    (present : creature.present = (s.around.creature c).present)
    (sided : s.Sided (s.around.setCreature c creature)) :
    ({ s with around := s.around.setCreature c creature } : State).Inv := by
  have place : ∀ d, ((s.around.setCreature c creature).creature d).position =
      (s.around.creature d).position ∧
      ((s.around.setCreature c creature).creature d).present = (s.around.creature d).present := by
    intro d
    rw [Surroundings.setCreature_creature]
    split_ifs with here
    · exact ⟨here ▸ position, here ▸ present⟩
    · exact ⟨rfl, rfl⟩
  have self : (s.around.setCreature c creature).self = s.around.self := rfl
  obtain ⟨grounded, aware⟩ := h.sided self place (T := (s.around.setCreature c creature).Target)
    (F := (s.around.setCreature c creature).Befriended)
    (fun d hd view => ⟨sided.1 d hd, view⟩) fun d hd view => ⟨sided.2 d hd, view⟩
  exact ⟨grounded, aware⟩

theorem Inv.convince (h : s.Inv) {convincer : CreatureId} {spectators later : List CreatureId}
    (possible : s.possible (.convince c convincer spectators later))
    (keeps : s.keeps (.convince c convincer spectators later)) :
    (s.convinceCreature c convincer spectators later).Inv := by
  obtain ⟨finds, findsLater⟩ := possible
  unfold convinceCreature
  split
  · exact h
  · next yields =>
      obtain ⟨targets, friends⟩ := keeps.resolve_left yields
      have place : ∀ d, ((s.around.convinced c convincer).creature d).position =
          (s.around.creature d).position ∧
          ((s.around.convinced c convincer).creature d).present =
            (s.around.creature d).present := by
        intro d
        unfold Surroundings.convinced
        dsimp only
        split_ifs with here
        · exact here ▸ ⟨rfl, rfl⟩
        · exact ⟨rfl, rfl⟩
        · exact ⟨rfl, rfl⟩
      have self : (s.around.convinced c convincer).self = s.around.self := rfl
      generalize s.around.convinced c convincer = w at *
      obtain ⟨grounded, listed⟩ := h.sided self place
        (T := fun d => ((looks w c convincer = true → 0 < (w.creature d).health) →
          w.isOpponent d = true) ∧ w.InView d)
        (F := fun d => ((looks w c convincer = true → 0 < (w.creature d).health) →
          w.isFriend d = true) ∧ w.InView d)
        (fun d hd view => ⟨targets d hd, view⟩) fun d hd view => ⟨friends d hd, view⟩
      have alive : ∀ d, w.isGone d = false → 0 < (w.creature d).health := by
        intro d kept
        unfold Surroundings.isGone at kept
        have := (Bool.or_eq_false_iff.mp kept).1
        simp only [decide_eq_false_iff_not] at this
        omega
      -- looking around at the entries, once or twice, makes them right
      have looked : ∀ {l : Lists} {sp : List CreatureId}, w.Finds sp → Listed
          (fun d => ((looks w c convincer = true → 0 < (w.creature d).health) →
            w.isOpponent d = true) ∧ w.InView d)
          (fun d => ((looks w c convincer = true → 0 < (w.creature d).health) →
            w.isFriend d = true) ∧ w.InView d) l →
          Listed w.Target w.Befriended ((l.updateTargetList w sp).updateIdleStatus w) :=
        fun finds listed => aware_updateTargetList listed finds
          (fun d hd kept => ⟨hd.1 fun _ => alive d kept, hd.2.1, hd.2.2.2⟩)
          fun d hd kept => ⟨hd.1 fun _ => alive d kept, hd.2.1, hd.2.2.2⟩
      have again : ∀ {l : Lists}, Listed w.Target w.Befriended l →
          Listed w.Target w.Befriended (l.onCreatureConvinced w convincer c later) := by
        intro l aware
        unfold Lists.onCreatureConvinced
        split
        · exact aware_updateTargetList aware findsLater
            (fun d hT _ => ⟨hT.1, hT.2.1, hT.2.2.2⟩) fun d hF _ => ⟨hF.1, hF.2.1, hF.2.2.2⟩
        · exact aware
      refine ⟨grounded, ?_⟩
      dsimp only
      split
      · next told =>
          split
          · exact again (looked finds listed)
          · next other =>
              unfold Lists.onCreatureConvinced
              split
              · exact looked findsLater listed
              · next minds =>
                  have passes : looks w c convincer = false := by
                    unfold looks
                    simp only [beq_eq_false_iff_ne.mpr other, Bool.false_or]
                    simp [minds]
                  exact listed.mono (fun d _ hd => ⟨hd.1 (fun looks => absurd (passes.symm.trans looks) Bool.false_ne_true), hd.2⟩)
                    fun d _ hd => ⟨hd.1 (fun looks => absurd (passes.symm.trans looks) Bool.false_ne_true), hd.2⟩
      · next untold =>
          split
          · exact looked finds listed
          · next other =>
              have passes : looks w c convincer = false := by
                unfold looks
                simp only [beq_eq_false_iff_ne.mpr other, Bool.false_or]
                simp [untold]
              exact listed.mono (fun d _ hd => ⟨hd.1 (fun looks => absurd (passes.symm.trans looks) Bool.false_ne_true), hd.2⟩)
                fun d _ hd => ⟨hd.1 (fun looks => absurd (passes.symm.trans looks) Bool.false_ne_true), hd.2⟩

theorem Inv.step (h : s.Inv) (e : Event) (possible : s.possible e) (keeps : s.keeps e) :
    (s.step e).Inv := by
  cases e with
  | place c pos spectators handled => exact h.place possible keeps
  | remove c ownFirst handled => exact h.remove keeps
  | move c newPos spectators handled => exact h.move possible keeps
  | setMaster c master => exact h.reclassified rfl rfl keeps
  | convince c convincer spectators later => exact h.convince possible keeps
  | setParty c party => exact h.reclassified rfl rfl keeps
  | setHealth c health =>
      have side : ∀ d, Surroundings.SameSide s.around
          (s.around.setCreature c { s.around.creature c with health }) d :=
        fun d => s.around.setCreature_side c d rfl rfl rfl
      exact h.reclassified rfl rfl
        ⟨fun d hd => (side d).same_classes.2.trans (h.aware.target d hd).1,
          fun d hd => (side d).same_classes.1.trans (h.aware.befriended d hd).1⟩
  | setConditions has => exact ⟨h.grounded, h.aware.updateIdleStatus⟩
  | setIdle idle => exact ⟨h.grounded, h.aware.setIdle idle⟩
  | followComplete c hasFollowPath =>
      exact ⟨h.grounded, h.aware.onFollowCreatureComplete c hasFollowPath⟩

/-! ### No doubles, and one reference each, whatever happens -/

abbrev Counted (l : Lists) : Prop := Listed (fun _ => True) (fun _ => True) l

theorem counted_found (h : Counted l) (c : CreatureId) (pushFront : Bool) :
    Counted (l.onCreatureFound w c pushFront) :=
  h.onCreatureFound (fun _ => trivial) (fun _ => trivial) pushFront

theorem counted_leave (h : Counted l) (c : CreatureId) : Counted (l.onCreatureLeave w c) :=
  (h.onCreatureLeave c).mono (fun _ _ _ => trivial) fun _ _ _ => trivial

theorem counted_look (h : Counted l) (spectators : List CreatureId) :
    Counted ((l.updateTargetList w spectators).updateIdleStatus w) :=
  Listed.updateIdleStatus (h.updateTargetList (fun _ _ _ => trivial) (fun _ _ _ => trivial)
    fun _ _ _ => ⟨fun _ => trivial, fun _ => trivial⟩)

theorem counted_appear (h : Counted l) (c : CreatureId) (spectators : List CreatureId)
    (handled : Bool) : Counted (l.onCreatureAppear w c spectators handled) := by
  unfold Lists.onCreatureAppear
  split
  · exact h
  · split
    · exact counted_look h spectators
    · exact counted_found h c true

theorem counted_remove (h : Counted l) (c : CreatureId) (handled : Bool) :
    Counted (l.onRemoveCreature w c handled) := by
  unfold Lists.onRemoveCreature
  split
  · exact h
  · split
    · exact h.setIdle true
    · exact counted_leave h c

theorem counted_move (h : Counted l) (c : CreatureId) (newPos oldPos : Position)
    (spectators : List CreatureId) (handled : Bool) :
    Counted (l.onCreatureMove w c newPos oldPos spectators handled) := by
  unfold Lists.onCreatureMove
  split
  · exact h
  · split
    · exact counted_look h spectators
    · refine Listed.updateIdleStatus ?_
      split
      · exact counted_found h c true
      · split
        · exact counted_leave h c
        · exact h

theorem counted_convinced (h : Counted l) (convincer c : CreatureId)
    (spectators : List CreatureId) :
    Counted (l.onCreatureConvinced w convincer c spectators) := by
  unfold Lists.onCreatureConvinced
  split
  · exact counted_look h spectators
  · exact h

theorem counted_step (h : Counted s.lists) (e : Event) : Counted (s.step e).lists := by
  cases e with
  | place c pos spectators handled =>
      simp only [step, placeCreature]
      (repeat' split) <;> first | exact h | exact counted_appear h c spectators handled
  | remove c ownFirst handled =>
      simp only [step, removeCreature]
      (repeat' split) <;> first | exact h | exact counted_remove h c handled
  | move c newPos spectators handled =>
      simp only [step, moveCreature]
      (repeat' split) <;> first | exact h | exact counted_move h c newPos _ spectators handled
  | setMaster c master => exact h
  | convince c convincer spectators later =>
      have first : Counted (if c = (s.around.convinced c convincer).self then
          (s.lists.updateTargetList (s.around.convinced c convincer) spectators).updateIdleStatus
            (s.around.convinced c convincer)
          else s.lists) := by
        split
        · exact counted_look h spectators
        · exact h
      simp only [step, convinceCreature]
      split
      · exact h
      · dsimp only
        split
        · exact counted_convinced first convincer c later
        · exact first
  | setParty c party => exact h
  | setHealth c health => exact h
  | setConditions has => exact h.updateIdleStatus
  | setIdle idle => exact h.setIdle idle
  | followComplete c hasFollowPath => exact h.onFollowCreatureComplete c hasFollowPath

/-! ### Runs -/

/-- The states that events lead to, where every event meets a condition. -/
inductive Run (meets : State → Event → Prop) : State → Prop
  | init (self : CreatureId) (creature : CreatureId → Creature) : Run meets (init self creature)
  | step {s : State} (run : Run meets s) (e : Event) (possible : s.possible e) (h : meets s e) :
      Run meets (s.step e)

theorem listed_nil : Listed T F {} :=
  ⟨List.nodup_nil, List.nodup_nil, fun _ => rfl, fun _ hc => absurd hc List.not_mem_nil,
    fun _ hc => absurd hc List.not_mem_nil⟩

/-- Each entry has one reference. -/
theorem listed_references (h : Listed T F l) (c : CreatureId) : l.references c =
    (if c ∈ l.targetList then 1 else 0) + if c ∈ l.friendList then 1 else 0 := by
  rw [h.references, h.targets_nodup.count, h.friends_nodup.count]
  push_cast
  rfl

/-- In every run no creature is twice in a list, and each entry has one reference. -/
theorem Run.counted {meets : State → Event → Prop} (run : Run meets s) :
    s.lists.targetList.Nodup ∧ s.lists.friendList.Nodup ∧ ∀ c, s.lists.references c =
      (if c ∈ s.lists.targetList then 1 else 0) + if c ∈ s.lists.friendList then 1 else 0 := by
  have h : Counted s.lists := by
    induction run with
    | init self creature => exact listed_nil
    | step run e possible meets ih => exact counted_step ih e
  exact ⟨h.targets_nodup, h.friends_nodup, listed_references h⟩

/-- What the lists of a monster should hold. -/
structure Right (s : State) : Prop where
  targets_nodup : s.lists.targetList.Nodup
  friends_nodup : s.lists.friendList.Nodup
  target : ∀ c ∈ s.lists.targetList, s.around.isOpponent c = true ∧
    s.around.canSee (s.around.creature c).position = true ∧
    (s.around.creature c).present = true
  befriended : ∀ c ∈ s.lists.friendList, s.around.isFriend c = true ∧
    s.around.canSee (s.around.creature c).position = true ∧
    (s.around.creature c).present = true
  references : ∀ c, s.lists.references c =
    (if c ∈ s.lists.targetList then 1 else 0) + if c ∈ s.lists.friendList then 1 else 0

/-- The lists are right in every run in which no creature is noticed out of view, and none that is
listed goes unnoticed or changes sides. -/
theorem Run.awareness (run : Run keeps s) : s.Right := by
  have h : s.Inv := by
    induction run with
    | init self creature => exact ⟨fun c on => absurd on Bool.false_ne_true, listed_nil⟩
    | step run e possible keeps ih => exact ih.step e possible keeps
  exact ⟨h.aware.targets_nodup, h.aware.friends_nodup,
    fun c hc => ⟨(h.aware.target c hc).1, (h.aware.target c hc).2.2⟩,
    fun c hc => ⟨(h.aware.befriended c hc).1, (h.aware.befriended c hc).2.2⟩,
    listed_references h.aware⟩

end State

/-! ### A player appears

A monster, and a player who logs in eleven squares away, or five. -/

namespace Sample

open State

def creatures (c : CreatureId) : Creature where
  kind := if c = 0 then .monster else .player false
  position := ⟨0, 0, 0⟩
  present := false
  health := 100
  master := none
  party := none

def spawned : State := (init 0 creatures).step (.place 0 ⟨100, 100, 7⟩ [] false)

/-- Player 1 logs in at a place. -/
def loggedIn (x : Nat) : State := spawned.step (.place 1 ⟨x, 100, 7⟩ [1] false)

theorem spawned_run {meets : State → Event → Prop}
    (h : meets (init 0 creatures) (.place 0 ⟨100, 100, 7⟩ [] false)) : Run meets spawned := by
  refine (Run.init 0 creatures).step _ ⟨by decide, fun d => ?_⟩ h
  refine ⟨fun hd => absurd hd List.not_mem_nil, fun ⟨other, present, _⟩ => ?_⟩
  have apart : d ≠ 0 := other
  rw [Surroundings.place_other _ _ apart] at present
  cases present

theorem finds_one {x : Nat} (near : isSpectator ⟨100, 100, 7⟩ ⟨x, 100, 7⟩ = true) :
    (spawned.around.place 1 ⟨x, 100, 7⟩).Finds [1] := by
  intro d
  by_cases here : d = 1
  · subst here
    exact ⟨fun _ => ⟨Nat.one_ne_zero, rfl, near⟩, fun _ => List.mem_singleton.mpr rfl⟩
  · refine ⟨fun hd => absurd (List.mem_singleton.mp hd) here, fun ⟨other, present, _⟩ => ?_⟩
    have before : spawned.around.creature d = (init 0 creatures).around.creature d :=
      (init 0 creatures).around.place_other _ other
    rw [Surroundings.place_other _ _ here, before] at present
    cases present

/-- A player who logs in out of view is a target. -/
theorem unseen_target : ¬∀ s, Run (fun _ _ => True) s → s.Right := by
  intro always
  have run : Run (fun _ _ => True) (loggedIn 111) :=
    (spawned_run trivial).step _ ⟨by decide, finds_one (by decide)⟩ trivial
  have seen := ((always _ run).target 1 (by decide)).2.1
  exact absurd seen (by decide)

theorem seen_target : (loggedIn 105).Right :=
  Run.awareness ((spawned_run (.inl rfl)).step (.place 1 ⟨105, 100, 7⟩ [1] false)
    ⟨by decide, finds_one (by decide)⟩ (.inr (.inr (.inl (by decide)))))

end Sample

end TibServer.Monster
