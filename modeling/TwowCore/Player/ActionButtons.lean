import TwowCore.Lib.WriteBehind

/-!
# Action buttons

A character's action bar is a map from buttons to packed numbers, written behind to the table
`character_action`. A button says the same to the table as to the client, since packing an action
and a type loses nothing, so the map is a coherent cache of the table (`Coherent`), and what the
client is shown is what saving leaves and the next login loads.

One path breaks that, and `Converts` leaves it out: a change of race deletes the buttons of a lost
spell also where they are new, and a new action on such a button is then an update of a row that is
not there.
-/

namespace TwowCore

open Lib (UpdateState Cached Fits Coherent)

/-- `ACTION_BUTTON_ACTION`. -/
def actionButtonAction (x : UInt32) : UInt32 := x &&& 0x00FFFFFF

/-- `ACTION_BUTTON_TYPE`. -/
def actionButtonType (x : UInt32) : UInt32 := (x &&& 0xFF000000) >>> 24

/-- `MAX_ACTION_BUTTON_ACTION_VALUE`. -/
def maxActionButtonActionValue : UInt32 := 0x00FFFFFF + 1

/-- A button, a `uint8`. -/
abbrev Button := Fin 256

/-- `MAX_ACTION_BUTTONS`. -/
def maxActionButtons : Button := 120

/-- `ACTION_BUTTON_SPELL`. -/
def actionButtonSpell : UInt8 := 0x00

/-- `ACTION_BUTTON_CMACRO`. -/
def actionButtonCmacro : UInt8 := 0x41

/-- `ACTION_BUTTON_MACRO`. -/
def actionButtonMacro : UInt8 := 0x40

/-- `ACTION_BUTTON_ITEM`. -/
def actionButtonItem : UInt8 := 0x80

/-- An action and a type in one number. -/
def packButton (action : UInt32) (type : UInt8) : UInt32 := action ||| (type.toUInt32 <<< 24)

/-- `ActionButton`. -/
structure ActionButton where
  packedData : UInt32 := 0
  uState : UpdateState := .new
  deriving DecidableEq

namespace ActionButton

def getType (ab : ActionButton) : UInt8 := (actionButtonType ab.packedData).toUInt8

def getAction (ab : ActionButton) : UInt32 := actionButtonAction ab.packedData

def setActionAndType (ab : ActionButton) (action : UInt32) (type : UInt8) : ActionButton :=
  let newData := packButton action type
  if newData ≠ ab.packedData ∨ ab.uState = .deleted then
    ⟨newData, if ab.uState ≠ .new then .changed else .new⟩
  else ab

/-- The button as its row has it. -/
def cached (ab : ActionButton) : Cached (UInt32 × UInt8) := ⟨(ab.getAction, ab.getType), ab.uState⟩

end ActionButton

/-- What `IsActionButtonDataValid` asks the world: which spells and items there are. -/
structure ActionStores where
  spellEntry : UInt32 → Bool
  isPassiveSpell : UInt32 → Bool
  itemPrototype : UInt32 → Bool

/-- `IsActionButtonDataValid`, for a player with these spells or for none. -/
def isActionButtonDataValid (stores : ActionStores) (button : Button) (action : UInt32) (type : UInt8)
    (player : Option (UInt32 → Bool)) : Bool :=
  if maxActionButtons ≤ button then false
  else if maxActionButtonActionValue ≤ action then false
  else if type = actionButtonSpell then
    if stores.spellEntry action = false then false
    else
      match player with
      | none => true
      | some hasSpell => hasSpell action && !stores.isPassiveSpell action
  else if type = actionButtonItem then stores.itemPrototype action
  else true

/-- The action buttons of a character, and the rows of `character_action` with his guid. -/
structure ActionBar where
  actionButtons : List (Button × ActionButton)
  characterAction : Button → Option (UInt32 × UInt8)

namespace ActionBar

variable (stores : ActionStores)

/-- `addActionButton`. The map makes a new button where there is none. -/
def addActionButton (bar : ActionBar) (button : Button) (action : UInt32) (type : UInt8) : ActionBar :=
  if isActionButtonDataValid stores button action type none = false then bar
  else
    let ab := (Lib.entryOf button bar.actionButtons).getD {}
    { bar with actionButtons := Lib.setEntry button (ab.setActionAndType action type) bar.actionButtons }

/-- `removeActionButton`. -/
def removeActionButton (bar : ActionBar) (button : Button) : ActionBar :=
  match Lib.entryOf button bar.actionButtons with
  | none => bar
  | some ab =>
    if ab.uState = .new then { bar with actionButtons := Lib.eraseEntry button bar.actionButtons }
    else
      { bar with actionButtons := Lib.setEntry button { ab with uState := .deleted } bar.actionButtons }

/-- `HandleSetActionButtonOpcode`. -/
def handleSetActionButton (bar : ActionBar) (hasSpell : UInt32 → Bool) (button : Button) (packetData : UInt32) :
    ActionBar :=
  let action := actionButtonAction packetData
  let type := (actionButtonType packetData).toUInt8
  if packetData = 0 then bar.removeActionButton button
  else if type ≠ actionButtonMacro ∧ type ≠ actionButtonCmacro ∧ type ≠ actionButtonSpell ∧
      type ≠ actionButtonItem then bar
  else if isActionButtonDataValid stores button action type (some hasSpell) = false then bar
  else bar.addActionButton stores button action type

/-- What `ConvertSpell` does to one button. -/
def convertButton (oldSpellId newSpellId : UInt32) (ab : ActionButton) : ActionButton :=
  if ab.uState = .deleted then ab
  else if ab.getType ≠ actionButtonSpell ∨ ab.getAction ≠ oldSpellId then ab
  else if 0 < newSpellId then ab.setActionAndType newSpellId actionButtonSpell
  else { ab with uState := .deleted }

/-- The loop of `ConvertSpell` over the buttons. -/
def convertSpell (bar : ActionBar) (oldSpellId newSpellId : UInt32) : ActionBar :=
  { bar with
    actionButtons := bar.actionButtons.map fun entry => (entry.1, convertButton oldSpellId newSpellId entry.2) }

/-- What `LoadActions` does with one row. -/
def loadAction (buttons : List (Button × ActionButton)) (row : Button × UInt32 × UInt8) :
    List (Button × ActionButton) :=
  let ab := (Lib.entryOf row.1 buttons).getD {}
  if isActionButtonDataValid stores row.1 row.2.1 row.2.2 none = true then
    Lib.setEntry row.1 { ab.setActionAndType row.2.1 row.2.2 with uState := .unchanged } buttons
  else Lib.setEntry row.1 { ab with uState := .deleted } buttons

/-- The rows of the table, `ORDER BY button`. -/
def rows (characterAction : Button → Option (UInt32 × UInt8)) : List (Button × UInt32 × UInt8) :=
  (List.finRange 256).filterMap fun button => (characterAction button).map fun row => (button, row)

/-- `LoadActions`. -/
def loadActions (bar : ActionBar) : ActionBar :=
  { bar with actionButtons := (rows bar.characterAction).foldl (loadAction stores) [] }

/-- What `SaveActions` does with one button: the statement it executes, and what stays of the button. -/
def saveAction (entry : Button × ActionButton) :
    Option (Lib.Statement Button (UInt32 × UInt8)) × Option (Button × ActionButton) :=
  match entry.2.uState with
  | .new =>
      (some (.insert entry.1 (entry.2.getAction, entry.2.getType)), some (entry.1, { entry.2 with uState := .unchanged }))
  | .changed =>
      (some (.update entry.1 (entry.2.getAction, entry.2.getType)), some (entry.1, { entry.2 with uState := .unchanged }))
  | .deleted => (some (.delete entry.1), none)
  | .unchanged => (none, some entry)

/-- The statements of `SaveActions`. -/
def saveStatements (bar : ActionBar) : List (Lib.Statement Button (UInt32 × UInt8)) :=
  bar.actionButtons.filterMap fun entry => (saveAction entry).1

/-- `SaveActions`. -/
def saveActions (bar : ActionBar) : ActionBar where
  actionButtons := bar.actionButtons.filterMap fun entry => (saveAction entry).2
  characterAction := bar.saveStatements.foldl Lib.Statement.exec bar.characterAction

/-- What `SendInitialActionButtons` sends for a button. -/
def shown (bar : ActionBar) (button : Button) : UInt32 :=
  match Lib.entryOf button bar.actionButtons with
  | none => 0
  | some ab => if ab.uState ≠ .deleted then ab.packedData else 0

end ActionBar

/-- What happens to the action bar of a character. -/
inductive ActionBarCall where
  /-- `CMSG_SET_ACTION_BUTTON`, from a player who knows these spells. -/
  | setActionButton (hasSpell : UInt32 → Bool) (button : Button) (packetData : UInt32)
  | convertSpell (oldSpellId newSpellId : UInt32)
  | saveActions
  /-- The character leaves without being saved, and comes back. -/
  | loadActions

namespace ActionBar

variable (stores : ActionStores)

/-- One call. -/
def call (bar : ActionBar) : ActionBarCall → ActionBar
  | .setActionButton hasSpell button packetData => bar.handleSetActionButton stores hasSpell button packetData
  | .convertSpell oldSpellId newSpellId => bar.convertSpell oldSpellId newSpellId
  | .saveActions => bar.saveActions
  | .loadActions => bar.loadActions stores

end ActionBar

section Packing

theorem toNat_actionButtonAction (x : UInt32) : (actionButtonAction x).toNat = x.toNat % 2 ^ 24 := by
  rw [actionButtonAction, UInt32.toNat_and]
  exact Nat.and_two_pow_sub_one_eq_mod x.toNat 24

theorem toNat_actionButtonType (x : UInt32) : (actionButtonType x).toNat = x.toNat / 2 ^ 24 := by
  have hlt := x.toNat_lt
  have hmask : (x &&& 0xFF000000) >>> 24 = x >>> 24 := by
    refine UInt32.toBitVec_inj.mp (BitVec.eq_of_getLsbD_eq fun i hi => ?_)
    simp only [UInt32.toBitVec_shiftRight, UInt32.toBitVec_and]
    interval_cases i <;> simp
  rw [actionButtonType, hmask, UInt32.toNat_shiftRight, Nat.shiftRight_eq_div_pow]
  rfl

theorem toNat_packButton {action : UInt32} (h : action < maxActionButtonActionValue) (type : UInt8) :
    (packButton action type).toNat = type.toNat * 2 ^ 24 + action.toNat := by
  have haction : action.toNat < 2 ^ 24 := h
  have htype := type.toNat_lt
  have hshift : (type.toUInt32 <<< 24).toNat = 2 ^ 24 * type.toNat := by
    rw [UInt32.toNat_shiftLeft, Nat.shiftLeft_eq, UInt8.toNat_toUInt32]
    show type.toNat * 2 ^ 24 % 2 ^ 32 = _
    omega
  rw [packButton, UInt32.toNat_or, hshift, Nat.or_comm, ← Nat.two_pow_add_eq_or_of_lt haction]
  omega

/-- Packing loses no action. -/
theorem action_packButton {action : UInt32} (h : action < maxActionButtonActionValue) (type : UInt8) :
    actionButtonAction (packButton action type) = action := by
  have haction : action.toNat < 2 ^ 24 := h
  refine UInt32.toNat_inj.mp ?_
  rw [toNat_actionButtonAction, toNat_packButton h]
  omega

/-- Packing loses no type. -/
theorem type_packButton {action : UInt32} (h : action < maxActionButtonActionValue) (type : UInt8) :
    (actionButtonType (packButton action type)).toUInt8 = type := by
  have haction : action.toNat < 2 ^ 24 := h
  have htype := type.toNat_lt
  refine UInt8.toNat_inj.mp ?_
  rw [UInt32.toNat_toUInt8, toNat_actionButtonType, toNat_packButton h]
  omega

theorem action_lt (x : UInt32) : actionButtonAction x < maxActionButtonActionValue := by
  show (actionButtonAction x).toNat < 2 ^ 24
  rw [toNat_actionButtonAction]
  exact Nat.mod_lt _ (by decide)

/-- Unpacking and packing gives the number back. -/
theorem packButton_unpack (x : UInt32) :
    packButton (actionButtonAction x) (actionButtonType x).toUInt8 = x := by
  have hx := x.toNat_lt
  refine UInt32.toNat_inj.mp ?_
  rw [toNat_packButton (action_lt x), UInt32.toNat_toUInt8, toNat_actionButtonType, toNat_actionButtonAction]
  omega

end Packing

namespace ActionButton

variable (ab : ActionButton) {action : UInt32} (type : UInt8)

theorem packedData_setActionAndType :
    (ab.setActionAndType action type).packedData = packButton action type := by
  unfold setActionAndType
  simp only
  split_ifs with hset hnew
  · rfl
  · rfl
  · exact (not_not.mp (not_or.mp hset).1).symm

theorem getAction_setActionAndType (h : action < maxActionButtonActionValue) :
    (ab.setActionAndType action type).getAction = action := by
  rw [getAction, packedData_setActionAndType, action_packButton h]

theorem getType_setActionAndType (h : action < maxActionButtonActionValue) :
    (ab.setActionAndType action type).getType = type := by
  rw [getType, packedData_setActionAndType, type_packButton h]

theorem setActionAndType_live : (ab.setActionAndType action type).uState ≠ .deleted := by
  unfold setActionAndType
  simp only
  split_ifs with hset hnew
  · exact nofun
  · exact nofun
  · exact (not_or.mp hset).2

/-- Setting a button, an old one or a fresh one, keeps its note right. -/
theorem fits_setActionAndType (action : UInt32) {old : Option ActionButton} {row : Option (UInt32 × UInt8)}
    (h : Fits (old.map cached) row) :
    Fits (some ((old.getD {}).setActionAndType action type).cached) row := by
  unfold setActionAndType
  simp only
  split
  · -- the note is that of a written value
    have hnote : (if (old.getD {}).uState ≠ .new then UpdateState.changed else .new) =
        Lib.noted (old.map cached) := by
      cases old with
      | none => rfl
      | some ab =>
          show (if ab.uState ≠ .new then UpdateState.changed else .new) = if ab.uState = .new then .new else .changed
          rw [ite_not]
    rw [hnote]
    exact h.write _
  · cases old with
    | none => exact h
    | some ab => exact h

end ActionButton

namespace ActionBar

variable {stores : ActionStores} {bar : ActionBar}

/-- What a button is, as the table would have it. -/
def look (bar : ActionBar) (button : Button) : Option (Cached (UInt32 × UInt8)) :=
  (Lib.entryOf button bar.actionButtons).map ActionButton.cached

/-- The notes are right, and what is live is valid. -/
structure Sound (stores : ActionStores) (bar : ActionBar) : Prop where
  sorted : Lib.KeysSorted bar.actionButtons
  coherent : Coherent bar.look bar.characterAction
  valid : ∀ entry ∈ bar.actionButtons, entry.2.uState ≠ .deleted →
    isActionButtonDataValid stores entry.1 entry.2.getAction entry.2.getType none = true

theorem look_setEntry (button : Button) (ab : ActionButton) :
    look { bar with actionButtons := Lib.setEntry button ab bar.actionButtons } =
      Function.update bar.look button (some ab.cached) := by
  funext k
  rw [look, Lib.entryOf_setEntry]
  by_cases hk : k = button
  · rw [if_pos hk, hk, Function.update_self]
    rfl
  · rw [if_neg hk, Function.update_of_ne hk]
    rfl

theorem look_eraseEntry (button : Button) :
    look { bar with actionButtons := Lib.eraseEntry button bar.actionButtons } =
      Function.update bar.look button none := by
  funext k
  rw [look, Lib.entryOf_eraseEntry]
  by_cases hk : k = button
  · rw [if_pos hk, hk, Function.update_self]
    rfl
  · rw [if_neg hk, Function.update_of_ne hk]
    rfl

theorem lt_of_valid {button : Button} {action : UInt32} {type : UInt8} {player : Option (UInt32 → Bool)}
    (h : isActionButtonDataValid stores button action type player = true) :
    action < maxActionButtonActionValue := by
  unfold isActionButtonDataValid at h
  split_ifs at h with hbutton haction <;> exact UInt32.not_le.mp haction

/-- One button is replaced by one that fits its row and is valid. -/
theorem Sound.setEntry (h : bar.Sound stores) {button : Button} {ab : ActionButton}
    (hfits : Fits (some ab.cached) (bar.characterAction button))
    (hvalid : ab.uState ≠ .deleted →
      isActionButtonDataValid stores button ab.getAction ab.getType none = true) :
    Sound stores { bar with actionButtons := Lib.setEntry button ab bar.actionButtons } where
  sorted := h.sorted.setEntry
  coherent := by
    rw [look_setEntry]
    exact h.coherent.update hfits
  valid := by
    intro entry hentry hlive
    rcases Lib.mem_setEntry hentry with rfl | hold
    · exact hvalid hlive
    · exact h.valid entry hold hlive

theorem Sound.addActionButton (h : bar.Sound stores) (button : Button) (action : UInt32) (type : UInt8) :
    (bar.addActionButton stores button action type).Sound stores := by
  unfold ActionBar.addActionButton
  split_ifs with hinvalid
  · exact h
  · have hvalid := Bool.not_eq_false _ ▸ hinvalid
    refine h.setEntry (ActionButton.fits_setActionAndType type action (h.coherent button)) fun _ => ?_
    rw [ActionButton.getAction_setActionAndType _ type (lt_of_valid hvalid),
      ActionButton.getType_setActionAndType _ type (lt_of_valid hvalid)]
    exact hvalid

theorem Sound.removeActionButton (h : bar.Sound stores) (button : Button) :
    (bar.removeActionButton button).Sound stores := by
  have hfits := h.coherent button
  unfold ActionBar.removeActionButton
  cases hfound : Lib.entryOf button bar.actionButtons with
  | none => exact h
  | some ab =>
      rw [look, hfound] at hfits
      simp only
      split_ifs with hnew
      · refine ⟨h.sorted.eraseEntry button, ?_, fun entry hentry => h.valid entry (List.mem_of_mem_filter hentry)⟩
        rw [look_eraseEntry]
        exact h.coherent.update (hfits.of_new hnew)
      · exact h.setEntry (hfits.remove hnew) fun hlive => absurd rfl hlive

theorem Sound.handleSetActionButton (h : bar.Sound stores) (hasSpell : UInt32 → Bool) (button : Button)
    (packetData : UInt32) : (bar.handleSetActionButton stores hasSpell button packetData).Sound stores := by
  unfold ActionBar.handleSetActionButton
  simp only
  split_ifs
  · exact h.removeActionButton button
  · exact h
  · exact h
  · exact h.addActionButton button _ _

/-- A conversion the table can follow: the new spell is one that can stand on a button, and a button that is
only to go has been saved. -/
def Converts (stores : ActionStores) (bar : ActionBar) : ActionBarCall → Prop
  | .convertSpell oldSpellId newSpellId =>
      if 0 < newSpellId then stores.spellEntry newSpellId = true ∧ newSpellId < maxActionButtonActionValue
      else ∀ entry ∈ bar.actionButtons, entry.2.uState = .new →
        ¬ (entry.2.getType = actionButtonSpell ∧ entry.2.getAction = oldSpellId)
  | _ => True

section Convert

variable {oldSpellId newSpellId : UInt32}

/-- A conversion the table can follow keeps the note of each button right. -/
theorem fits_convertButton (hok : bar.Converts stores (.convertSpell oldSpellId newSpellId))
    {entry : Button × ActionButton} (hentry : entry ∈ bar.actionButtons) {row : Option (UInt32 × UInt8)}
    (hfits : Fits (some entry.2.cached) row) :
    Fits (some (convertButton oldSpellId newSpellId entry.2).cached) row := by
  unfold convertButton
  split_ifs with hdeleted hother hpos
  · exact hfits
  · exact hfits
  · have hold : Fits (Option.map ActionButton.cached (some entry.2)) row := hfits
    exact ActionButton.fits_setActionAndType actionButtonSpell newSpellId hold
  · have hsaved : entry.2.uState ≠ .new := by
      intro hnew
      rw [Converts, if_neg hpos] at hok
      obtain ⟨htype, haction⟩ := not_or.mp hother
      exact hok entry hentry hnew ⟨not_not.mp htype, not_not.mp haction⟩
    exact hfits.remove hsaved

/-- What is live after a conversion the table can follow is valid. -/
theorem valid_convertButton (h : bar.Sound stores)
    (hok : bar.Converts stores (.convertSpell oldSpellId newSpellId)) {entry : Button × ActionButton}
    (hentry : entry ∈ bar.actionButtons) (hlive : (convertButton oldSpellId newSpellId entry.2).uState ≠ .deleted) :
    isActionButtonDataValid stores entry.1 (convertButton oldSpellId newSpellId entry.2).getAction
      (convertButton oldSpellId newSpellId entry.2).getType none = true := by
  unfold convertButton at hlive ⊢
  split_ifs at hlive ⊢ with hdeleted hother hpos
  · exact absurd hdeleted hlive
  · exact h.valid entry hentry hdeleted
  · rw [Converts, if_pos hpos] at hok
    have hbutton := h.valid entry hentry hdeleted
    rw [ActionButton.getAction_setActionAndType _ _ hok.2, ActionButton.getType_setActionAndType _ _ hok.2]
    unfold isActionButtonDataValid at hbutton ⊢
    split_ifs at hbutton with hrange
    all_goals
      rw [if_neg hrange, if_neg (UInt32.not_le.mpr hok.2), if_pos rfl, if_neg (by rw [hok.1]; exact nofun)]
  · exact absurd rfl hlive

theorem Sound.convertSpell (h : bar.Sound stores) (hok : bar.Converts stores (.convertSpell oldSpellId newSpellId)) :
    (bar.convertSpell oldSpellId newSpellId).Sound stores where
  sorted := List.pairwise_map.mpr h.sorted
  coherent := by
    intro button
    have hfits := h.coherent button
    rw [look] at hfits
    rw [look, ActionBar.convertSpell, Lib.entryOf_map]
    cases hfound : Lib.entryOf button bar.actionButtons with
    | none =>
        rw [hfound] at hfits
        exact hfits
    | some ab =>
        rw [hfound] at hfits
        exact fits_convertButton hok (Lib.mem_of_entryOf hfound) hfits
  valid := by
    intro entry hentry hlive
    obtain ⟨old, hold, rfl⟩ := List.mem_map.mp hentry
    exact valid_convertButton h hok hold hlive

end Convert

section Save

/-- The buttons as the table would have them. -/
def entries (bar : ActionBar) : List (Button × Cached (UInt32 × UInt8)) :=
  bar.actionButtons.map fun entry => (entry.1, entry.2.cached)

theorem look_eq (bar : ActionBar) : bar.look = fun button => Lib.entryOf button bar.entries :=
  funext fun _ => (Lib.entryOf_map _).symm

theorem Sound.nodup (h : bar.Sound stores) : (bar.entries.map Prod.fst).Nodup := by
  rw [entries, Lib.keys_map]
  exact h.sorted.nodup

theorem saveStatements_eq (bar : ActionBar) : bar.saveStatements = Lib.statements bar.entries := by
  rw [saveStatements, Lib.statements, entries, List.flatMap_map, List.filterMap_eq_flatMap_toList]
  refine List.flatMap_congr fun entry _ => ?_
  obtain ⟨button, packedData, uState⟩ := entry
  cases uState <;> rfl

theorem entries_saveActions (bar : ActionBar) : bar.saveActions.entries = Lib.flushed bar.entries := by
  unfold saveActions entries Lib.flushed
  induction bar.actionButtons with
  | nil => rfl
  | cons entry rest ih =>
      obtain ⟨button, packedData, uState⟩ := entry
      cases uState with
      | unchanged | changed | new => exact congrArg (_ :: ·) ih
      | deleted => exact ih

/-- Saving leaves in the table what the buttons mean. -/
theorem Sound.characterAction_saveActions (h : bar.Sound stores) :
    bar.saveActions.characterAction = Lib.live bar.look := by
  rw [look_eq, ← Lib.flush_live h.nodup (look_eq bar ▸ h.coherent), ← saveStatements_eq]
  rfl

theorem Sound.saveActions (h : bar.Sound stores) : bar.saveActions.Sound stores where
  sorted := by
    refine List.Pairwise.filterMap _ (fun a a' hlt b hb b' hb' => ?_) h.sorted
    have hkey : ∀ {entry kept : Button × ActionButton}, (saveAction entry).2 = some kept → kept.1 = entry.1 := by
      intro entry kept hkept
      unfold saveAction at hkept
      split at hkept
      · exact (Option.some.inj hkept) ▸ rfl
      · exact (Option.some.inj hkept) ▸ rfl
      · cases hkept
      · exact (Option.some.inj hkept) ▸ rfl
    rw [hkey hb, hkey hb']
    exact hlt
  coherent := by
    rw [look_eq, entries_saveActions]
    have hflushed := Lib.Coherent.flushed h.nodup (look_eq bar ▸ h.coherent)
    rw [← saveStatements_eq] at hflushed
    exact hflushed
  valid := by
    intro entry hentry hlive
    obtain ⟨old, hold, hkept⟩ := List.mem_filterMap.mp hentry
    unfold saveAction at hkept
    split at hkept <;> rename_i hstate
    · obtain rfl := Option.some.inj hkept
      exact h.valid old hold (by rw [hstate]; exact nofun)
    · obtain rfl := Option.some.inj hkept
      exact h.valid old hold (by rw [hstate]; exact nofun)
    · cases hkept
    · obtain rfl := Option.some.inj hkept
      exact h.valid old hold (by rw [hstate]; exact nofun)

end Save

section Load

/-- The button that a row is loaded as. -/
def loadedButton (stores : ActionStores) (button : Button) (row : UInt32 × UInt8) : ActionButton :=
  if isActionButtonDataValid stores button row.1 row.2 none = true then ⟨packButton row.1 row.2, .unchanged⟩
  else ⟨0, .deleted⟩

/-- A row is loaded into a fresh button. -/
theorem loadAction_fresh {buttons : List (Button × ActionButton)} {row : Button × UInt32 × UInt8}
    (h : Lib.entryOf row.1 buttons = none) :
    loadAction stores buttons row = Lib.setEntry row.1 (loadedButton stores row.1 row.2) buttons := by
  unfold loadAction loadedButton
  rw [h]
  simp only [Option.getD_none]
  split_ifs with hvalid
  · rw [← ActionButton.packedData_setActionAndType {} row.2.2]
  · rfl

/-- The rows are loaded one by one into buttons of their own. -/
theorem entryOf_foldl_loadAction {rows : List (Button × UInt32 × UInt8)} {buttons : List (Button × ActionButton)}
    (hnodup : (rows.map Prod.fst).Nodup) (hfresh : ∀ row ∈ rows, Lib.entryOf row.1 buttons = none)
    (button : Button) :
    Lib.entryOf button (rows.foldl (loadAction stores) buttons) =
      match Lib.entryOf button rows with
      | none => Lib.entryOf button buttons
      | some row => some (loadedButton stores button row) := by
  induction rows generalizing buttons with
  | nil => rfl
  | cons row rest ih =>
      obtain ⟨hnot, hrest⟩ := List.nodup_cons.mp hnodup
      have hstep : loadAction stores buttons row = Lib.setEntry row.1 (loadedButton stores row.1 row.2) buttons :=
        loadAction_fresh (hfresh row List.mem_cons_self)
      have hlater : ∀ later ∈ rest, Lib.entryOf later.1 (loadAction stores buttons row) = none := by
        intro later hmem
        have hne : later.1 ≠ row.1 := fun heq => hnot (heq ▸ List.mem_map_of_mem hmem)
        rw [hstep, Lib.entryOf_setEntry, if_neg hne]
        exact hfresh later (List.mem_cons_of_mem _ hmem)
      rw [List.foldl_cons, ih hrest hlater, Lib.entryOf_cons, hstep, Lib.entryOf_setEntry]
      by_cases hk : button = row.1
      · have hgone : Lib.entryOf row.1 rest = none := Lib.entryOf_eq_none.mpr hnot
        rw [if_pos hk, if_pos hk, hk, hgone]
      · rw [if_neg hk, if_neg hk]

variable {characterAction : Button → Option (UInt32 × UInt8)}

theorem mem_rows {row : Button × UInt32 × UInt8} :
    row ∈ rows characterAction ↔ characterAction row.1 = some row.2 := by
  unfold rows
  rw [List.mem_filterMap]
  constructor
  · rintro ⟨button, -, hrow⟩
    obtain ⟨found, hfound, rfl⟩ := Option.map_eq_some_iff.mp hrow
    exact hfound
  · intro h
    exact ⟨row.1, List.mem_finRange _, by rw [h]; rfl⟩

theorem rows_nodup : ((rows characterAction).map Prod.fst).Nodup := by
  have hkeys : (rows characterAction).map Prod.fst =
      (List.finRange 256).filter fun button => (characterAction button).isSome := by
    unfold rows
    rw [List.map_filterMap, ← List.filterMap_eq_filter]
    refine List.filterMap_congr fun button _ => ?_
    cases h : characterAction button <;> simp [Option.guard, h]
  rw [hkeys]
  exact (List.nodup_finRange 256).filter _

theorem entryOf_rows (button : Button) : Lib.entryOf button (rows characterAction) = characterAction button := by
  cases h : characterAction button with
  | none =>
      refine Lib.entryOf_eq_none.mpr fun hmem => ?_
      obtain ⟨row, hrow, rfl⟩ := List.mem_map.mp hmem
      rw [mem_rows.mp hrow] at h
      cases h
  | some row =>
      have hmem : (button, row) ∈ rows characterAction := mem_rows.mpr h
      rw [Lib.entryOf, Lib.find_key rows_nodup hmem rfl]
      rfl

/-- What is loaded for a button is its row. -/
theorem entryOf_loadActions (bar : ActionBar) (button : Button) :
    Lib.entryOf button (bar.loadActions stores).actionButtons =
      (bar.characterAction button).map (loadedButton stores button) := by
  rw [loadActions, entryOf_foldl_loadAction rows_nodup fun _ _ => rfl, entryOf_rows]
  cases bar.characterAction button <;> rfl

theorem sorted_loadActions (bar : ActionBar) : Lib.KeysSorted (bar.loadActions stores).actionButtons := by
  unfold loadActions
  refine List.foldlRecOn (rows bar.characterAction) (loadAction stores) List.Pairwise.nil fun buttons hsorted row _ => ?_
  unfold loadAction
  split_ifs
  · exact Lib.KeysSorted.setEntry hsorted
  · exact Lib.KeysSorted.setEntry hsorted

/-- A row that is valid is loaded as it is, the others are marked to go. -/
theorem fits_loadedButton (button : Button) (row : UInt32 × UInt8) :
    Fits (some (loadedButton stores button row).cached) (some row) := by
  unfold loadedButton
  split_ifs with hvalid
  · show some row = some (actionButtonAction (packButton row.1 row.2), (actionButtonType (packButton row.1 row.2)).toUInt8)
    rw [action_packButton (lt_of_valid hvalid), type_packButton (lt_of_valid hvalid)]
  · exact rfl

/-- What is loaded from any rows is right. -/
theorem sound_loadActions (bar : ActionBar) : (bar.loadActions stores).Sound stores where
  sorted := sorted_loadActions bar
  coherent := by
    intro button
    rw [look, entryOf_loadActions]
    show Fits _ (bar.characterAction button)
    cases bar.characterAction button with
    | none => exact rfl
    | some row => exact fits_loadedButton button row
  valid := by
    intro entry hentry hlive
    have hsorted : Lib.KeysSorted (bar.loadActions stores).actionButtons := sorted_loadActions bar
    have hfound := hsorted.entryOf_eq hentry
    rw [entryOf_loadActions] at hfound
    obtain ⟨row, -, hrow⟩ := Option.map_eq_some_iff.mp hfound
    rw [← hrow] at hlive ⊢
    unfold loadedButton at hlive ⊢
    split_ifs at hlive ⊢ with hvalid
    · show isActionButtonDataValid stores entry.1 (actionButtonAction (packButton row.1 row.2))
        (actionButtonType (packButton row.1 row.2)).toUInt8 none = true
      rw [action_packButton (lt_of_valid hvalid), type_packButton (lt_of_valid hvalid)]
      exact hvalid
    · exact absurd rfl hlive

end Load

/-- A call the table can follow keeps the notes right. -/
theorem Sound.call (h : bar.Sound stores) (call : ActionBarCall) (hok : bar.Converts stores call) :
    (bar.call stores call).Sound stores := by
  cases call with
  | setActionButton hasSpell button packetData => exact h.handleSetActionButton hasSpell button packetData
  | convertSpell oldSpellId newSpellId => exact h.convertSpell hok
  | saveActions => exact h.saveActions
  | loadActions => exact sound_loadActions bar

/-- The button is loaded again as it was saved. -/
theorem Sound.shown_reload (h : bar.Sound stores) :
    (bar.saveActions.loadActions stores).shown = bar.shown := by
  funext button
  unfold shown
  rw [entryOf_loadActions, h.characterAction_saveActions, Lib.live, look]
  cases hfound : Lib.entryOf button bar.actionButtons with
  | none => rfl
  | some ab =>
      show (match Option.map (loadedButton stores button)
          (if ab.uState = .deleted then none else some (ab.getAction, ab.getType)) with
        | none => 0
        | some ab => if ab.uState ≠ .deleted then ab.packedData else 0) =
          if ab.uState ≠ .deleted then ab.packedData else 0
      by_cases hdeleted : ab.uState = .deleted
      · rw [if_pos hdeleted, if_neg (not_not.mpr hdeleted)]
        rfl
      · have hvalid : isActionButtonDataValid stores button ab.getAction ab.getType none = true :=
          h.valid _ (Lib.mem_of_entryOf hfound) hdeleted
        rw [if_neg hdeleted, if_pos hdeleted, Option.map_some, loadedButton, if_pos hvalid]
        exact packButton_unpack ab.packedData

end ActionBar

/-- A bar without notes: what is shown, and what the next login will show. -/
structure PlainBar where
  shown : Button → UInt32
  saved : Button → UInt32

/-- A packet that is not refused. -/
def Accepts (stores : ActionStores) (hasSpell : UInt32 → Bool) (button : Button) (packetData : UInt32) : Prop :=
  let type := (actionButtonType packetData).toUInt8
  (type = actionButtonMacro ∨ type = actionButtonCmacro ∨ type = actionButtonSpell ∨ type = actionButtonItem) ∧
    isActionButtonDataValid stores button (actionButtonAction packetData) type (some hasSpell) = true

instance (stores : ActionStores) (hasSpell : UInt32 → Bool) (button : Button) (packetData : UInt32) :
    Decidable (Accepts stores hasSpell button packetData) :=
  inferInstanceAs (Decidable (_ ∧ _))

/-- What the calls are for. -/
def PlainBar.call (stores : ActionStores) (bar : PlainBar) : ActionBarCall → PlainBar
  | .setActionButton hasSpell button packetData =>
      if packetData = 0 ∨ Accepts stores hasSpell button packetData then
        { bar with shown := Function.update bar.shown button packetData }
      else bar
  | .convertSpell oldSpellId newSpellId =>
      { bar with
        shown := fun button =>
          if bar.shown button ≠ 0 ∧ (actionButtonType (bar.shown button)).toUInt8 = actionButtonSpell ∧
              actionButtonAction (bar.shown button) = oldSpellId then newSpellId
          else bar.shown button }
  | .saveActions => { bar with saved := bar.shown }
  | .loadActions => { bar with shown := bar.saved }

namespace ActionBar

variable {stores : ActionStores} {bar : ActionBar}

/-- What a button shows. -/
def shownButton (ab : Option ActionButton) : UInt32 :=
  match ab with
  | none => 0
  | some ab => if ab.uState ≠ .deleted then ab.packedData else 0

theorem shown_eq (bar : ActionBar) (button : Button) :
    bar.shown button = shownButton (Lib.entryOf button bar.actionButtons) := rfl

theorem shown_setEntry (button : Button) (ab : ActionButton) :
    shown { bar with actionButtons := Lib.setEntry button ab bar.actionButtons } =
      Function.update bar.shown button (shownButton (some ab)) := by
  funext k
  rw [shown_eq, Lib.entryOf_setEntry]
  by_cases hk : k = button
  · rw [if_pos hk, hk, Function.update_self]
  · rw [if_neg hk, Function.update_of_ne hk, shown_eq]

theorem shown_removeActionButton (button : Button) :
    (bar.removeActionButton button).shown = Function.update bar.shown button 0 := by
  unfold removeActionButton
  cases hfound : Lib.entryOf button bar.actionButtons with
  | none =>
      have hzero : bar.shown button = 0 := by rw [shown_eq, hfound, shownButton]
      exact (Function.update_eq_self_iff.mpr hzero.symm).symm
  | some ab =>
      simp only
      split_ifs
      · funext k
        rw [shown_eq, Lib.entryOf_eraseEntry]
        by_cases hk : k = button
        · rw [if_pos hk, hk, Function.update_self, shownButton]
        · rw [if_neg hk, Function.update_of_ne hk, shown_eq]
      · rw [shown_setEntry]
        rfl

/-- What is valid for a player is valid. -/
theorem valid_of_player {button : Button} {action : UInt32} {type : UInt8} {player : Option (UInt32 → Bool)}
    (h : isActionButtonDataValid stores button action type player = true) :
    isActionButtonDataValid stores button action type none = true := by
  unfold isActionButtonDataValid at h ⊢
  split_ifs at h ⊢ <;> first | rfl | exact h

theorem shown_addActionButton {button : Button} {action : UInt32} {type : UInt8}
    (h : isActionButtonDataValid stores button action type none = true) :
    (bar.addActionButton stores button action type).shown =
      Function.update bar.shown button (packButton action type) := by
  unfold addActionButton
  rw [if_neg (by rw [h]; exact nofun)]
  simp only
  rw [shown_setEntry, shownButton, if_pos (ActionButton.setActionAndType_live _ type),
    ActionButton.packedData_setActionAndType]

theorem shown_handleSetActionButton (hasSpell : UInt32 → Bool) (button : Button) (packetData : UInt32) :
    (bar.handleSetActionButton stores hasSpell button packetData).shown =
      if packetData = 0 ∨ Accepts stores hasSpell button packetData then
        Function.update bar.shown button packetData
      else bar.shown := by
  unfold handleSetActionButton Accepts
  simp only
  by_cases hzero : packetData = 0
  · rw [if_pos hzero, if_pos (Or.inl hzero), hzero]
    exact shown_removeActionButton button
  rw [if_neg hzero]
  by_cases htype : (actionButtonType packetData).toUInt8 = actionButtonMacro ∨
      (actionButtonType packetData).toUInt8 = actionButtonCmacro ∨
      (actionButtonType packetData).toUInt8 = actionButtonSpell ∨
      (actionButtonType packetData).toUInt8 = actionButtonItem
  · rw [if_neg fun hnone => by
      obtain ⟨hmac, hcmac, hspell, hitem⟩ := hnone
      exact htype.elim hmac fun h => h.elim hcmac fun h => h.elim hspell hitem]
    by_cases hvalid : isActionButtonDataValid stores button (actionButtonAction packetData)
        (actionButtonType packetData).toUInt8 (some hasSpell) = true
    · rw [if_neg (by rw [hvalid]; exact nofun), if_pos (Or.inr ⟨htype, hvalid⟩),
        shown_addActionButton (valid_of_player hvalid), packButton_unpack]
    · rw [if_pos (Bool.not_eq_true _ ▸ hvalid), if_neg (not_or.mpr ⟨hzero, fun h => hvalid h.2⟩)]
  · obtain ⟨hmac, hcmac, hspell, hitem⟩ : _ ∧ _ ∧ _ ∧ _ := by simpa only [not_or] using htype
    rw [if_pos ⟨hmac, hcmac, hspell, hitem⟩, if_neg (not_or.mpr ⟨hzero, fun h => htype h.1⟩)]

/-- A button of a spell is packed as the number of the spell. -/
theorem packButton_spell (action : UInt32) : packButton action actionButtonSpell = action := by
  unfold packButton actionButtonSpell
  exact UInt32.or_zero

/-- Where no spell has the number 0, no live button is packed as 0. -/
theorem Sound.packedData_ne_zero (h : bar.Sound stores) (hspell : stores.spellEntry 0 = false) {button : Button}
    {ab : ActionButton} (hfound : Lib.entryOf button bar.actionButtons = some ab) (hlive : ab.uState ≠ .deleted) :
    ab.packedData ≠ 0 := by
  intro hzero
  have hvalid : isActionButtonDataValid stores button (actionButtonAction ab.packedData)
      (actionButtonType ab.packedData).toUInt8 none = true := h.valid _ (Lib.mem_of_entryOf hfound) hlive
  rw [hzero, show actionButtonAction 0 = 0 from rfl, show (actionButtonType 0).toUInt8 = actionButtonSpell from rfl]
    at hvalid
  unfold isActionButtonDataValid at hvalid
  rw [if_pos rfl, if_pos hspell] at hvalid
  split_ifs at hvalid

theorem shownButton_convertButton {oldSpellId newSpellId : UInt32} {ab : ActionButton}
    (hlive : ab.uState ≠ .deleted) (hne : ab.packedData ≠ 0) :
    shownButton (some (convertButton oldSpellId newSpellId ab)) =
      if ab.packedData ≠ 0 ∧ (actionButtonType ab.packedData).toUInt8 = actionButtonSpell ∧
          actionButtonAction ab.packedData = oldSpellId then newSpellId
      else ab.packedData := by
  have hshown : shownButton (some ab) = ab.packedData := if_pos hlive
  unfold convertButton
  rw [if_neg hlive]
  by_cases hother : ab.getType ≠ actionButtonSpell ∨ ab.getAction ≠ oldSpellId
  · rw [if_pos hother, hshown, if_neg]
    rintro ⟨-, htype, haction⟩
    exact hother.elim (fun h => h htype) fun h => h haction
  · obtain ⟨htype, haction⟩ := not_or.mp hother
    have hspell : ab.packedData ≠ 0 ∧ (actionButtonType ab.packedData).toUInt8 = actionButtonSpell ∧
        actionButtonAction ab.packedData = oldSpellId := ⟨hne, not_not.mp htype, not_not.mp haction⟩
    rw [if_neg hother, if_pos hspell]
    by_cases hpos : 0 < newSpellId
    · rw [if_pos hpos, shownButton, if_pos (ActionButton.setActionAndType_live _ _),
        ActionButton.packedData_setActionAndType, packButton_spell]
    · -- without a new spell the button goes
      have hnone : newSpellId = 0 := UInt32.le_zero_iff.mp (UInt32.not_lt.mp hpos)
      rw [if_neg hpos, hnone]
      rfl

theorem Sound.shown_convertSpell (h : bar.Sound stores) (hspell : stores.spellEntry 0 = false)
    (oldSpellId newSpellId : UInt32) (button : Button) :
    (bar.convertSpell oldSpellId newSpellId).shown button =
      if bar.shown button ≠ 0 ∧ (actionButtonType (bar.shown button)).toUInt8 = actionButtonSpell ∧
          actionButtonAction (bar.shown button) = oldSpellId then newSpellId
      else bar.shown button := by
  rw [shown_eq, shown_eq, ActionBar.convertSpell, Lib.entryOf_map]
  cases hfound : Lib.entryOf button bar.actionButtons with
  | none => exact (if_neg fun h => h.1 rfl).symm
  | some ab =>
      by_cases hdeleted : ab.uState = .deleted
      · have hnothing : shownButton (some ab) = 0 := if_neg (not_not.mpr hdeleted)
        have hkept : convertButton oldSpellId newSpellId ab = ab := if_pos hdeleted
        rw [Option.map_some, hkept, hnothing]
        exact (if_neg fun h => h.1 rfl).symm
      · rw [Option.map_some, shownButton_convertButton hdeleted (h.packedData_ne_zero hspell hfound hdeleted),
          shownButton, if_pos hdeleted]

theorem shown_eq_live (bar : ActionBar) (button : Button) :
    bar.shown button =
      match Lib.live bar.look button with
      | none => 0
      | some row => packButton row.1 row.2 := by
  rw [shown_eq, Lib.live, look]
  cases Lib.entryOf button bar.actionButtons with
  | none => rfl
  | some ab =>
      show (if ab.uState ≠ .deleted then ab.packedData else 0) =
        match (if ab.uState = .deleted then none else some (ab.getAction, ab.getType)) with
        | none => 0
        | some row => packButton row.1 row.2
      rw [ite_not]
      split_ifs
      · rfl
      · exact (packButton_unpack ab.packedData).symm

/-- Saving changes nothing of what is shown. -/
theorem Sound.shown_saveActions (h : bar.Sound stores) : bar.saveActions.shown = bar.shown := by
  funext button
  rw [shown_eq_live, shown_eq_live, look_eq, entries_saveActions, Lib.live_flushed h.nodup, ← look_eq]

theorem loadActions_congr {bar' : ActionBar} (h : bar.characterAction = bar'.characterAction) :
    (bar.loadActions stores).shown = (bar'.loadActions stores).shown := by
  funext button
  rw [shown_eq, shown_eq, entryOf_loadActions, entryOf_loadActions, h]

/-- The bar with its notes does what it is for: it shows what the plain bar shows, and would show after a login
what the plain bar has saved. -/
structure Refines (stores : ActionStores) (bar : ActionBar) (plain : PlainBar) : Prop where
  sound : bar.Sound stores
  shown : bar.shown = plain.shown
  saved : (bar.loadActions stores).shown = plain.saved

theorem Refines.setActionButton {plain : PlainBar} (h : Refines stores bar plain) (hasSpell : UInt32 → Bool)
    (button : Button) (packetData : UInt32) :
    Refines stores (bar.handleSetActionButton stores hasSpell button packetData)
      (plain.call stores (.setActionButton hasSpell button packetData)) := by
  refine ⟨h.sound.handleSetActionButton hasSpell button packetData, ?_, ?_⟩
  · rw [shown_handleSetActionButton, PlainBar.call, h.shown]
    split_ifs <;> rfl
  · have hsame : (bar.handleSetActionButton stores hasSpell button packetData).characterAction =
        bar.characterAction := by
      unfold handleSetActionButton removeActionButton addActionButton
      simp only
      split_ifs
      · split
        · rfl
        · split_ifs <;> rfl
      all_goals rfl
    rw [loadActions_congr hsame, h.saved, PlainBar.call]
    split_ifs <;> rfl

/-- A call the table can follow keeps to the plain bar. -/
theorem Refines.call {plain : PlainBar} (hspell : stores.spellEntry 0 = false) (h : Refines stores bar plain)
    (call : ActionBarCall) (hok : bar.Converts stores call) :
    Refines stores (bar.call stores call) (plain.call stores call) := by
  cases call with
  | setActionButton hasSpell button packetData => exact h.setActionButton hasSpell button packetData
  | convertSpell oldSpellId newSpellId =>
      refine ⟨h.sound.convertSpell hok, funext fun button => ?_, (loadActions_congr rfl).trans h.saved⟩
      rw [ActionBar.call, h.sound.shown_convertSpell hspell, h.shown]
      rfl
  | saveActions =>
      exact ⟨h.sound.saveActions, h.sound.shown_saveActions.trans h.shown, h.sound.shown_reload.trans h.shown⟩
  | loadActions =>
      exact ⟨sound_loadActions bar, h.saved, (loadActions_congr rfl).trans h.saved⟩

/-- Over every run of calls from a login: the character is shown what a plain bar shows, a login that did not
save first shows what was last saved, and every statement of a save finds the row it is about, or for a new
button none. -/
theorem run_actionBar (hspell : stores.spellEntry 0 = false) (characterAction : Button → Option (UInt32 × UInt8))
    (calls : List ActionBarCall)
    (hok : Lib.Along (Converts stores) (call stores) (loadActions stores ⟨[], characterAction⟩) calls) :
    let start := loadActions stores ⟨[], characterAction⟩
    let bar := Lib.run (call stores) start calls
    let plain := Lib.run (PlainBar.call stores) ⟨start.shown, start.shown⟩ calls
    bar.shown = plain.shown ∧ (bar.loadActions stores).shown = plain.saved ∧
      Lib.Along (fun table s => s.Takes table) Lib.Statement.exec bar.characterAction bar.saveStatements := by
  intro start bar plain
  have hrefines : Refines stores bar plain :=
    Lib.run_simulates  (fun _ _ input hcall h => h.call hspell input hcall)
      ⟨sound_loadActions _, rfl, loadActions_congr rfl⟩ hok
  refine ⟨hrefines.shown, hrefines.saved, ?_⟩
  rw [saveStatements_eq]
  exact Lib.statements_take hrefines.sound.nodup
    ((look_eq bar ▸ hrefines.sound.coherent).fits hrefines.sound.nodup)

/-- A spell is put on a button, converted, saved and loaded. -/
theorem run_actionBar_frostbolt :
    let stores : ActionStores := ⟨fun spell => spell = 133 ∨ spell = 116, fun _ => false, fun _ => false⟩
    let start := loadActions stores ⟨[], fun _ => none⟩
    let calls : List ActionBarCall :=
      [.setActionButton (fun _ => true) 3 133, .convertSpell 133 116, .saveActions, .loadActions]
    (Lib.run (call stores) start calls).shown =
      (Lib.run (PlainBar.call stores) ⟨start.shown, start.shown⟩ calls).shown := by
  intro stores start calls
  have hconverts : ∀ bar, Converts stores bar (.convertSpell 133 116) := by
    intro bar
    rw [Converts, if_pos (by decide)]
    decide
  have hok : Lib.Along (Converts stores) (call stores) start calls :=
    ⟨trivial, hconverts _, trivial, trivial, trivial⟩
  exact (run_actionBar (by decide) (fun _ => none) calls hok).1

end ActionBar

end TwowCore
