import Mathlib.Tactic
import TibServer.ContainerPages

/-!
The pages of open containers. A page begins at a multiple of the capacity and has an item on it, or it
is the first. Opening, seeking and adding keep this. Moving up keeps it where the container that was
left is found in the one above, and a removal where all who stand at a page that it empties are told.
-/

namespace TibServer.ContainerPages

variable {s s' : State}

/-- The window does not stand beyond the items. -/
def OnPage (container : Container) (index : BitVec 16) : Prop :=
  index.toNat % container.capacity = 0 ∧ (index.toNat = 0 ∨ index.toNat < container.size)

/-- Every open container with pages stands at one of them. -/
structure Valid (s : State) : Prop where
  window_le : ∀ player cid window, s.openContainers player cid = some window → cid ≤ 0xF
  onPage : ∀ player cid window, s.openContainers player cid = some window →
    (s.containers window.container).pagination = true →
      OnPage (s.containers window.container) window.index

/-- The container that is left is among the items of the one above, on a page whose number fits. Who
stands at a page that is emptied has a client and is near. -/
def Told (s : State) : Event → Prop
  | .moveUp player cid parent _ =>
      ∀ c ∈ s.getContainerByID player cid, ∀ above ∈ parent,
        (s.containers above).pagination = true →
          c ∈ (s.containers above).itemlist ∧ (s.containers above).pageStart c < 2 ^ 16
  | .removeThing c item hasParent spectators =>
      item ∈ (s.containers c).itemlist → (s.containers c).pagination = true →
        ∀ player cid index, s.openContainers player cid = some ⟨c, index⟩ → index ≠ 0 →
          (s.containers c).size - 1 ≤ index.toNat →
            hasParent = true ∧ player ∈ spectators ∧ s.hasClient player = true
  | _ => True

/-! ### Windows -/

theorem onPage_zero (container : Container) : OnPage container 0 :=
  ⟨Nat.zero_mod _, Or.inl rfl⟩

theorem OnPage.mono {container container' : Container} {index : BitVec 16}
    (h : OnPage container index) (hcapacity : container'.capacity = container.capacity)
    (hsize : container.size ≤ container'.size) : OnPage container' index :=
  ⟨hcapacity ▸ h.1, h.2.imp id fun hlt => hlt.trans_le hsize⟩

theorem setWindow_openContainers {player cid : Nat} {window : Option OpenContainer}
    {player' cid' : Nat} : (s.setWindow player cid window).openContainers player' cid' =
      if player' = player ∧ cid' = cid then window else s.openContainers player' cid' := by
  unfold State.setWindow
  dsimp only
  by_cases hplayer : player' = player
  · subst hplayer
    rw [Function.update_self]
    by_cases hcid : cid' = cid
    · rw [hcid, Function.update_self, if_pos ⟨rfl, rfl⟩]
    · rw [Function.update_of_ne hcid, if_neg fun hboth => hcid hboth.2]
  · rw [Function.update_of_ne hplayer, if_neg fun hboth => hplayer hboth.1]

/-- One window changes. -/
theorem Valid.setWindow (h : Valid s) (player cid : Nat) {window : Option OpenContainer}
    (hwindow : ∀ opened, window = some opened → cid ≤ 0xF ∧
      ((s.containers opened.container).pagination = true →
        OnPage (s.containers opened.container) opened.index)) :
    Valid (s.setWindow player cid window) := by
  refine ⟨fun player' cid' opened hopened => ?_, fun player' cid' opened hopened => ?_⟩
  · rw [setWindow_openContainers] at hopened
    split_ifs at hopened with hsame
    · exact hsame.2 ▸ (hwindow opened hopened).1
    · exact h.window_le player' cid' opened hopened
  · rw [setWindow_openContainers] at hopened
    split_ifs at hopened
    · exact (hwindow opened hopened).2
    · exact h.onPage player' cid' opened hopened

theorem Valid.addContainer (h : Valid s) (player cid c : Nat) :
    Valid (s.addContainer player cid c) := by
  unfold State.addContainer
  split_ifs with hcid
  · exact h
  · refine h.setWindow player cid fun opened hopened => ?_
    cases hopened
    exact ⟨not_lt.1 hcid, fun _ => onPage_zero _⟩

theorem Valid.closeContainer (h : Valid s) (player cid : Nat) :
    Valid (s.closeContainer player cid) :=
  h.setWindow player cid fun _ hopened => by cases hopened

theorem Valid.setContainerIndex (h : Valid s) {player cid : Nat} {index : BitVec 16}
    (hindex : ∀ c, s.getContainerByID player cid = some c →
      (s.containers c).pagination = true → OnPage (s.containers c) index) :
    Valid (s.setContainerIndex player cid index) := by
  unfold State.setContainerIndex
  cases hwindow : s.openContainers player cid with
  | none => exact h
  | some window =>
      refine h.setWindow player cid fun opened hopened => ?_
      cases hopened
      refine ⟨h.window_le player cid window hwindow, hindex window.container ?_⟩
      unfold State.getContainerByID
      rw [hwindow, Option.map_some]

theorem Valid.playerSeekInContainer (h : Valid s) (player cid : Nat) (index : BitVec 16) :
    Valid (s.playerSeekInContainer player cid index) := by
  unfold State.playerSeekInContainer
  cases hopen : s.getContainerByID player cid with
  | none => exact h
  | some c =>
      dsimp only
      split_ifs with _ hbad
      · exact h
      · exact h
      · push Not at hbad
        refine h.setContainerIndex fun c' hc' _ => ?_
        cases hopen.symm.trans hc'
        exact ⟨hbad.1, Or.inr hbad.2⟩

/-! ### Moving up -/

theorem getThingIndex_of_mem {container : Container} {thing : Nat}
    (h : thing ∈ container.itemlist) :
    ∃ index < container.size, container.getThingIndex thing = index := by
  unfold Container.getThingIndex Container.size
  have hsome : (container.itemlist.findIdx? (· == thing)).isSome = true := by
    rw [List.findIdx?_isSome, List.any_eq_true]
    exact ⟨thing, h, beq_self_eq_true thing⟩
  obtain ⟨index, hindex⟩ := Option.isSome_iff_exists.1 hsome
  rw [hindex]
  exact ⟨index, (List.findIdx?_eq_some_iff_getElem.1 hindex).1, rfl⟩

/-- The page of an item begins no later than the item. -/
theorem pageStart_lt {container : Container} {thing : Nat} (h : thing ∈ container.itemlist) :
    container.pageStart thing < container.size := by
  obtain ⟨index, hlt, hindex⟩ := getThingIndex_of_mem h
  have hunsigned : ((container.getThingIndex thing) % 2 ^ 32).toNat ≤ index := by
    rw [hindex]
    omega
  unfold Container.pageStart
  exact ((Nat.div_mul_le_self _ _).trans hunsigned).trans_lt hlt

theorem pageStart_mod (container : Container) (thing : Nat) :
    container.pageStart thing % container.capacity = 0 :=
  Nat.mul_mod_left _ _

theorem Valid.playerMoveUpContainer (h : Valid s) {player cid : Nat} {parent : Option Nat}
    {overflow : BitVec 16} (told : Told s (.moveUp player cid parent overflow)) :
    Valid (s.playerMoveUpContainer player cid parent overflow) := by
  unfold State.playerMoveUpContainer
  cases hopen : s.getContainerByID player cid with
  | none => exact h
  | some c =>
      cases parent with
      | none => exact h
      | some above =>
          dsimp only
          split_ifs with hpages hfits
          · obtain ⟨hmem, -⟩ := told c hopen above rfl hpages
            refine (h.addContainer player cid above).setContainerIndex fun c' hc' _ => ?_
            have hcontainers : (s.addContainer player cid above).containers = s.containers := by
              unfold State.addContainer
              split_ifs <;> rfl
            have hcid : ¬ cid > 0xF := by
              obtain ⟨window, hwindow, -⟩ := Option.map_eq_some_iff.1 hopen
              exact not_lt.2 (h.window_le player cid window hwindow)
            have hc : c' = above := by
              unfold State.getContainerByID State.addContainer at hc'
              rw [if_neg hcid, setWindow_openContainers, if_pos ⟨rfl, rfl⟩] at hc'
              exact (Option.some.inj hc').symm
            rw [hcontainers, hc]
            have htoNat : (BitVec.ofNat 16 ((s.containers above).pageStart c)).toNat =
                (s.containers above).pageStart c := by
              rw [BitVec.toNat_ofNat, Nat.mod_eq_of_lt hfits]
            refine ⟨?_, Or.inr ?_⟩
            · rw [htoNat]
              exact pageStart_mod _ c
            · rw [htoNat]
              exact pageStart_lt hmem
          · exact absurd (told c hopen above rfl hpages).2 hfits
          · exact h.addContainer player cid above

/-! ### Items -/

/-- The items of a container change, and no window stands beyond them. -/
theorem Valid.setContainer (h : Valid s) {c : Nat} {container : Container}
    (hpages : ∀ player cid index, s.openContainers player cid = some ⟨c, index⟩ →
      container.pagination = true → OnPage container index) :
    Valid (s.setContainer c container) := by
  refine ⟨h.window_le, fun player cid window hwindow => ?_⟩
  unfold State.setContainer
  dsimp only
  by_cases heq : window.container = c
  · subst heq
    rw [Function.update_self]
    exact hpages player cid window.index hwindow
  · rw [Function.update_of_ne heq]
    exact h.onPage player cid window hwindow

/-- More items, or others. -/
theorem Valid.setItems (h : Valid s) (c : Nat) {itemlist : List Nat}
    (hlength : (s.containers c).itemlist.length ≤ itemlist.length) :
    Valid (s.setContainer c { s.containers c with itemlist := itemlist }) :=
  h.setContainer fun player cid index hwindow hpages =>
    (h.onPage player cid ⟨c, index⟩ hwindow hpages).mono rfl hlength

/-- A window at the page that is emptied goes back by one page, and no further. -/
theorem turnBack_onPage {c : Nat} {window : OpenContainer} (hcontainer : window.container = c)
    (h : OnPage (s.containers c) window.index) :
    (s.turnBack c window).container = c ∧
      OnPage (s.containers c) (s.turnBack c window).index ∧
        ((s.turnBack c window).index.toNat = 0 ∨
          (s.turnBack c window).index.toNat < (s.containers c).size - 1) := by
  obtain ⟨hmod, hsize⟩ := h
  have hpos := (s.containers c).capacity_pos
  unfold State.turnBack
  split_ifs with hback
  · obtain ⟨-, hne, hlast⟩ := hback
    have hnonzero : window.index.toNat ≠ 0 := fun hzero => hne (BitVec.eq_of_toNat_eq hzero)
    have hlt : window.index.toNat < (s.containers c).size := hsize.resolve_left hnonzero
    have hle : (s.containers c).capacity ≤ window.index.toNat :=
      Nat.le_of_dvd (Nat.pos_of_ne_zero hnonzero) (Nat.dvd_of_mod_eq_zero hmod)
    have hindex : (window.index - BitVec.ofNat 16 (s.containers c).capacity).toNat =
        window.index.toNat - (s.containers c).capacity := by
      have hbound := window.index.isLt
      rw [BitVec.toNat_sub, BitVec.toNat_ofNat, Nat.mod_eq_of_lt (hle.trans_lt hbound)]
      omega
    have hcapacity : 0 < (s.containers c).capacity := hpos
    refine ⟨hcontainer, ⟨?_, ?_⟩, ?_⟩
    · rw [hindex, ← Nat.mod_eq_sub_mod hle]
      exact hmod
    · rw [hindex]
      omega
    · rw [hindex]
      omega
  · refine ⟨hcontainer, ⟨hmod, hsize⟩, ?_⟩
    by_cases hzero : window.index.toNat = 0
    · exact Or.inl hzero
    · refine Or.inr (not_le.1 fun hlast => hback ⟨hcontainer, fun heq => hzero ?_, hlast⟩)
      rw [heq]
      rfl

theorem turnBack_of_ne {c : Nat} {window : OpenContainer} (hcontainer : window.container ≠ c) :
    s.turnBack c window = window :=
  if_neg fun hback => hcontainer hback.1

/-- What becomes of a window when the players who are near are told. -/
theorem onRemoveContainerItem_eq_some {c player cid : Nat} {spectators : List Nat}
    {window : OpenContainer}
    (h : (s.onRemoveContainerItem c spectators).openContainers player cid = some window) :
    ∃ before, s.openContainers player cid = some before ∧
      window = if player ∈ spectators ∧ s.hasClient player then s.turnBack c before else before := by
  unfold State.onRemoveContainerItem at h
  dsimp only at h
  split_ifs at h with htold
  · obtain ⟨before, hbefore, rfl⟩ := Option.map_eq_some_iff.1 h
    exact ⟨before, hbefore, (if_pos htold).symm⟩
  · exact ⟨window, h, (if_neg htold).symm⟩

theorem Valid.onRemoveContainerItem (h : Valid s) (c : Nat) (spectators : List Nat) :
    Valid (s.onRemoveContainerItem c spectators) := by
  refine ⟨fun player cid window hwindow => ?_, fun player cid window hwindow => ?_⟩
  · obtain ⟨before, hbefore, -⟩ := onRemoveContainerItem_eq_some hwindow
    exact h.window_le player cid before hbefore
  · obtain ⟨before, hbefore, rfl⟩ := onRemoveContainerItem_eq_some hwindow
    show (s.containers _).pagination = true → OnPage (s.containers _) _
    split_ifs
    · by_cases heq : before.container = c
      · subst heq
        intro hpages
        have hsame : (s.turnBack before.container before).container = before.container := by
          unfold State.turnBack
          split_ifs <;> rfl
        rw [hsame] at hpages ⊢
        exact (turnBack_onPage rfl (h.onPage player cid before hbefore hpages)).2.1
      · rw [turnBack_of_ne heq]
        exact h.onPage player cid before hbefore
    · exact h.onPage player cid before hbefore

theorem Valid.removeThing (h : Valid s) {c item : Nat} {hasParent : Bool} {spectators : List Nat}
    (told : Told s (.removeThing c item hasParent spectators)) :
    Valid (s.removeThing c item hasParent spectators) := by
  unfold State.removeThing
  split_ifs with hmem hparent
  · -- who is told has gone back before the item is taken out
    refine (h.onRemoveContainerItem c spectators).setContainer
      fun player cid index hwindow hpages => ?_
    have hpages' : (s.containers c).pagination = true := hpages
    have hlength : ((s.containers c).itemlist.erase item).length = (s.containers c).size - 1 :=
      List.length_erase_of_mem hmem
    obtain ⟨before, hbefore, heq⟩ := onRemoveContainerItem_eq_some hwindow
    split_ifs at heq with htold
    · by_cases hsame : before.container = c
      · have hvalid := h.onPage player cid before hbefore
        rw [hsame] at hvalid
        obtain ⟨-, ⟨hmod, -⟩, hback⟩ := turnBack_onPage hsame (hvalid hpages')
        rw [← heq] at hmod hback
        exact ⟨hmod, hback.imp_right fun hlt => hlt.trans_eq hlength.symm⟩
      · rw [turnBack_of_ne hsame] at heq
        rw [← heq] at hsame
        exact absurd rfl hsame
    · subst heq
      have hvalid := h.onPage player cid ⟨c, index⟩ hbefore hpages'
      refine ⟨hvalid.1, ?_⟩
      by_cases hzero : index = 0
      · exact Or.inl (hzero ▸ rfl)
      · refine Or.inr ((not_le.1 fun hlast => htold ?_).trans_eq hlength.symm)
        exact (told hmem hpages' player cid index hbefore hzero hlast).2
  · refine h.setContainer fun player cid index hwindow hpages => ?_
    have hlength : ((s.containers c).itemlist.erase item).length = (s.containers c).size - 1 :=
      List.length_erase_of_mem hmem
    have hvalid := h.onPage player cid ⟨c, index⟩ hwindow hpages
    refine ⟨hvalid.1, ?_⟩
    by_cases hzero : index = 0
    · exact Or.inl (hzero ▸ rfl)
    · refine Or.inr ((not_le.1 fun hlast => hparent ?_).trans_eq hlength.symm)
      exact (told hmem hpages player cid index hwindow hzero hlast).1
  · exact h

/-! ### Runs -/

theorem Valid.perform (h : Valid s) {event : Event} (possible : Possible s event)
    (told : Told s event) : Valid (perform s event) := by
  cases event with
  | create c container =>
      refine h.setContainer fun player cid index hwindow _ => absurd ?_ (possible player cid)
      unfold State.getContainerByID
      rw [hwindow, Option.map_some]
  | addContainer player cid c => exact h.addContainer player cid c
  | closeContainer player cid => exact h.closeContainer player cid
  | seek player cid index => exact h.playerSeekInContainer player cid index
  | moveUp player cid parent overflow => exact h.playerMoveUpContainer told
  | addThing c item back =>
      refine h.setItems c ?_
      split_ifs
      · rw [List.length_append]
        exact Nat.le_add_right ..
      · exact Nat.le_succ _
  | replaceThing c index item => exact h.setItems c (List.length_set ..).ge
  | removeThing c item hasParent spectators => exact h.removeThing told
  | setClient player hasClient => exact ⟨h.window_le, h.onPage⟩

theorem run_valid (run : Run Told s) : Valid s := by
  induction run with
  | start containers =>
      exact ⟨fun _ _ _ hopened => (by cases hopened), fun _ _ _ hopened => (by cases hopened)⟩
  | step event _ possible told ih => exact ih.perform possible told

/-- **Open containers stand at a page.** As long as players move up only from containers that are
found in the one above, and everybody who stands at a page that is emptied is told, every open
container with pages stands at a multiple of its capacity, that is zero or has an item, and to go back
by one page stays above zero. -/
theorem open_pages (run : Run Told s) {player cid : Nat} {window : OpenContainer}
    (hopen : s.openContainers player cid = some window)
    (hpages : (s.containers window.container).pagination = true) :
    window.index.toNat % (s.containers window.container).capacity = 0 ∧
      (window.index.toNat = 0 ∨
        window.index.toNat < (s.containers window.container).size ∧
          (s.containers window.container).capacity ≤ window.index.toNat) := by
  obtain ⟨hmod, hsize⟩ := (run_valid run).onPage player cid window hopen hpages
  refine ⟨hmod, ?_⟩
  rcases Nat.eq_zero_or_pos window.index.toNat with hzero | hpos
  · exact Or.inl hzero
  · refine Or.inr ⟨hsize.resolve_left hpos.ne', ?_⟩
    exact Nat.le_of_dvd hpos (Nat.dvd_of_mod_eq_zero hmod)

namespace Sample

/-- A field with 31 items, the last of which is on the second page. -/
def field : Container := ⟨30, true, List.range' 1 31, by decide⟩

def start : State := ⟨fun _ => field, fun _ _ => none, fun _ => true⟩

/-- A player opens the field and turns to its second page. -/
def turned : State := perform (perform start (.addContainer 0 15 7)) (.seek 0 15 30)

theorem turned_run (allowed : State → Event → Prop)
    (h : ∀ s player cid c, allowed s (.addContainer player cid c))
    (h' : ∀ s player cid index, allowed s (.seek player cid index)) : Run allowed turned :=
  ((Run.start _).step (.addContainer 0 15 7) trivial (h ..)).step (.seek 0 15 30) trivial (h' ..)

theorem turned_page : (30 : BitVec 16).toNat % (turned.containers 7).capacity = 0 ∧
    ((30 : BitVec 16).toNat = 0 ∨ (30 : BitVec 16).toNat < (turned.containers 7).size ∧
      (turned.containers 7).capacity ≤ (30 : BitVec 16).toNat) :=
  open_pages (turned_run Told (fun _ _ _ _ => trivial) fun _ _ _ _ => trivial)
    (show turned.openContainers 0 15 = some ⟨7, 30⟩ by decide +kernel) rfl

/-- The player loses the connection, and somebody takes an item. -/
theorem empty_page : ¬ ∀ s, Run (fun _ _ => True) s → ∀ player cid window,
    s.openContainers player cid = some window →
      (s.containers window.container).pagination = true →
        window.index.toNat % (s.containers window.container).capacity = 0 ∧
          (window.index.toNat = 0 ∨
            window.index.toNat < (s.containers window.container).size) := by
  intro h
  have hrun := ((turned_run (fun _ _ => True) (fun _ _ _ _ => trivial) fun _ _ _ _ => trivial).step
    (.setClient 0 false) trivial trivial).step (.removeThing 7 5 true [0, 1]) trivial trivial
  obtain ⟨-, hsize⟩ := h _ hrun 0 15 ⟨7, 30⟩ (by decide +kernel) rfl
  revert hsize
  decide +kernel

end Sample

end TibServer.ContainerPages
