import KnobFirmware.AudioTaskProofs
import KnobFirmware.ObjectTreeProofs

/-! # The menu pages — code of the LVGL task

    Every page is built under one container, `menu_cont`, by its own
    constructor.  `show_menu` clears the page-local pointers, deletes the
    container and calls the next constructor; `push_menu` and `pop_menu` keep
    the history.  Buttons, sliders and four timers call back into this code, and
    nothing else touches an LVGL object.

    LVGL itself is an object tree.  A constructor is the list of what it
    creates, in source order.  Consecutive calls on one object (size, style,
    text) are one call here; texts, sizes and styles are left out, and so is
    what a callback does outside the page. -/

namespace Menu

open AudioTask (MenuId)
open ObjectTree StepMachine

/-! ## The state -/

/-- The page-local pointers. -/
inductive Widget where
  | touchTestLabel
  | encoderTestLabel
  | sdTestLabel
  | mediaStatusLabel
  | audioMicStatusLabel
  | audioMicLevelBar
  | audioMicPeakLabel
  | audioDacInfoLabel
  | audioLoopbackStatusLabel
  | audioLoopbackGainLabel
  | audioLoopbackGainSlider
  | batteryAdcStatusLabel
  | batteryAdcDetailLabel
  | batteryAdcLevelBar
  deriving DecidableEq, Repr

/-- The callbacks of the buttons. -/
inductive ButtonCb where
  | openMediaControllerCb
  | openSettingsCb
  | openDisplayCb
  | openAudioCb
  | openInputCb
  | openAboutCb
  | openHardwareTestsCb
  | openHwDisplayCb
  | openHwTouchCb
  | openHwEncoderCb
  | openHwBacklightCb
  | openHwMemoryCb
  | openHwSdCb
  | openHwHapticsCb
  | openHwAudioMicCb
  | openHwBatteryCb
  | openHwWirelessCb
  | backCb
  | audioMicBackCb
  | mediaPreviousCb
  | mediaPlayPauseCb
  | mediaNextCb
  | mediaMuteCb
  | sdMountRefreshCb
  | sdReadWriteTestCb
  | sdListRootCb
  | sdUnmountCb
  | audioMicStartCb
  | audioMicStopCb
  | audioDacStartToneCb
  | audioDacStopToneCb
  | audioLoopbackStartCb
  | audioLoopbackToggleMuteCb
  | audioLoopbackStopCb
  | audioMicOutputInfoCb
  | hapticRtpTestCb
  | hapticStrongClickCb
  | hapticDoubleClickCb
  | hapticSoftBumpCb
  | hapticBuzzCb
  | hapticStopCb
  deriving DecidableEq, Repr

/-- The callbacks of the sliders. -/
inductive SliderCb where
  | bezelSensitivityChangedCb
  | backlightTestChangedCb
  | audioLoopbackGainChangedCb
  deriving DecidableEq, Repr

/-- What an object calls when it is used. -/
inductive Kind where
  | plain
  | button (cb : ButtonCb)
  | slider (cb : SliderCb)
  deriving DecidableEq, Repr

def menuStackSize : Nat := 12

structure Nav where
  currentMenu  : MenuId := .main
  menuStack    : List MenuId := List.replicate menuStackSize .main
  menuStackTop : Int := -1
  deriving DecidableEq, Repr

structure Ui extends Nav where
  menuCont : Option Nat := none
  widget   : Widget → Option Nat := fun _ => none
  objs     : Forest Kind := []
  /-- the pointers passed to LVGL so far, and whether each was to an object that
      lived at that time -/
  calls    : List (Option Nat × Bool) := []

namespace Ui

/-- A call of LVGL on the pointer. -/
def pass (u : Ui) (o : Option Nat) : Ui :=
  { u with calls := u.calls ++ [(o, o.any u.objs.isLive)] }

/-- `lv_xxx_create(parent)`; the object's number is `u.objs.length`. -/
def create (u : Ui) (kind : Kind) (parent : Option Nat) : Ui :=
  { u.pass parent with objs := u.objs.create kind parent }

/-- `w = o` -/
def store (u : Ui) (w : Widget) (o : Option Nat) : Ui :=
  { u with widget := Function.update u.widget w o }

/-- `if (w != NULL)`, and a call on `w`. -/
def refresh (u : Ui) (w : Widget) : Ui :=
  if u.widget w = none then u else u.pass (u.widget w)

/-- An object of the page, kept in a pointer or not, and the calls that set it
    up. -/
def add (u : Ui) (kind : Kind) (w : Option Widget) : Ui :=
  match w with
  | none => (u.create kind u.menuCont).pass (some u.objs.length)
  | some w => ((u.create kind u.menuCont).store w (some u.objs.length)).pass (some u.objs.length)

/-- An object of the page with a label of its own. -/
def addLabelled (u : Ui) (kind : Kind) : Ui :=
  let v := (u.create kind u.menuCont).pass (some u.objs.length)
  (v.create .plain (some u.objs.length)).pass (some v.objs.length)

end Ui

/-! ## The pages -/

/-- What a constructor does. -/
inductive Item where
  /-- `lv_label_create` -/
  | label (w : Option Widget)
  /-- `lv_bar_create` -/
  | bar (w : Widget)
  /-- `lv_slider_create` -/
  | slider (w : Option Widget) (cb : Option SliderCb)
  /-- `create_menu_button` -/
  | menuButton (cb : ButtonCb)
  /-- `create_color_swatch` -/
  | colorSwatch
  /-- `sd_card_update_status_label` -/
  | sdStatus
  deriving DecidableEq, Repr

/-- `sd_card_update_status_label`. -/
def sdCardUpdateStatusLabel (u : Ui) : Ui := u.refresh .sdTestLabel

def Item.build (u : Ui) : Item → Ui
  | .label w => u.add .plain w
  | .bar w => u.add .plain (some w)
  | .slider w none => u.add .plain w
  | .slider w (some cb) => u.add (.slider cb) w
  | .menuButton cb => u.addLabelled (.button cb)
  | .colorSwatch => u.addLabelled .plain
  | .sdStatus => sdCardUpdateStatusLabel u

def createMainMenu : List Item :=
  [.label none, .menuButton .openMediaControllerCb, .menuButton .openSettingsCb,
    .menuButton .openHardwareTestsCb, .menuButton .openAboutCb]

def createMediaControllerMenu : List Item :=
  [.label none, .label (some .mediaStatusLabel), .label none, .menuButton .mediaPreviousCb,
    .menuButton .mediaPlayPauseCb, .menuButton .mediaNextCb, .menuButton .mediaMuteCb,
    .menuButton .backCb]

def createSettingsMenu : List Item :=
  [.label none, .menuButton .openDisplayCb, .menuButton .openAudioCb, .menuButton .openInputCb,
    .menuButton .backCb]

def createDisplayMenu : List Item :=
  [.label none, .label none, .slider none none, .menuButton .backCb]

def createAudioMenu : List Item :=
  [.label none, .label none, .slider none none, .menuButton .backCb]

def createInputMenu : List Item :=
  [.label none, .label none, .slider none (some .bezelSensitivityChangedCb), .menuButton .backCb]

def createAboutMenu : List Item := [.label none, .label none, .menuButton .backCb]

def createHardwareTestsMenu : List Item :=
  [.label none, .menuButton .openHwDisplayCb, .menuButton .openHwTouchCb,
    .menuButton .openHwEncoderCb, .menuButton .openHwBacklightCb, .menuButton .openHwMemoryCb,
    .menuButton .openHwSdCb, .menuButton .openHwHapticsCb, .menuButton .openHwAudioMicCb,
    .menuButton .openHwBatteryCb, .menuButton .openHwWirelessCb, .menuButton .backCb]

def createHwDisplayTestMenu : List Item :=
  .label none :: List.replicate 8 .colorSwatch ++ [.label none, .menuButton .backCb]

def createHwTouchTestMenu : List Item :=
  [.label none, .label none, .label (some .touchTestLabel), .menuButton .backCb]

def createHwEncoderTestMenu : List Item :=
  [.label none, .label none, .label (some .encoderTestLabel), .menuButton .backCb]

def createHwBacklightTestMenu : List Item :=
  [.label none, .slider none (some .backlightTestChangedCb), .menuButton .backCb]

def createHwMemoryTestMenu : List Item :=
  [.label none, .label none, .label none, .menuButton .backCb]

def createHwSdTestMenu : List Item :=
  [.label none, .label (some .sdTestLabel), .sdStatus, .menuButton .sdMountRefreshCb,
    .menuButton .sdReadWriteTestCb, .menuButton .sdListRootCb, .menuButton .sdUnmountCb,
    .menuButton .backCb]

def createHwAudioMicTestMenu : List Item :=
  [.label none, .label (some .audioMicStatusLabel), .bar .audioMicLevelBar,
    .label (some .audioMicPeakLabel), .menuButton .audioMicStartCb, .menuButton .audioMicStopCb,
    .label (some .audioDacInfoLabel), .menuButton .audioDacStartToneCb,
    .menuButton .audioDacStopToneCb, .label (some .audioLoopbackStatusLabel),
    .label (some .audioLoopbackGainLabel),
    .slider (some .audioLoopbackGainSlider) (some .audioLoopbackGainChangedCb),
    .menuButton .audioLoopbackStartCb, .menuButton .audioLoopbackToggleMuteCb,
    .menuButton .audioLoopbackStopCb, .menuButton .audioMicOutputInfoCb,
    .menuButton .audioMicBackCb]

def createHwHapticsTestMenu : List Item :=
  [.label none, .label none, .menuButton .hapticRtpTestCb, .menuButton .hapticStrongClickCb,
    .menuButton .hapticDoubleClickCb, .menuButton .hapticSoftBumpCb, .menuButton .hapticBuzzCb,
    .menuButton .hapticStopCb, .menuButton .backCb]

def createHwBatteryTestMenu : List Item :=
  [.label none, .label none, .label (some .batteryAdcStatusLabel), .bar .batteryAdcLevelBar,
    .label (some .batteryAdcDetailLabel), .label none, .menuButton .backCb]

def createHwUnavailableMenu : List Item := [.label none, .label none, .menuButton .backCb]

/-- The `switch` of `show_menu`. -/
def createMenu : MenuId → List Item
  | .main => createMainMenu
  | .mediaController => createMediaControllerMenu
  | .settings => createSettingsMenu
  | .display => createDisplayMenu
  | .audio => createAudioMenu
  | .input => createInputMenu
  | .about => createAboutMenu
  | .hardwareTests => createHardwareTestsMenu
  | .hwDisplay => createHwDisplayTestMenu
  | .hwTouch => createHwTouchTestMenu
  | .hwEncoder => createHwEncoderTestMenu
  | .hwBacklight => createHwBacklightTestMenu
  | .hwMemory => createHwMemoryTestMenu
  | .hwSd => createHwSdTestMenu
  | .hwHaptics => createHwHapticsTestMenu
  | .hwAudioMic => createHwAudioMicTestMenu
  | .hwBattery => createHwBatteryTestMenu
  | .hwUnavailable => createHwUnavailableMenu

/-- `create_menu_container`, and `menu_cont` set to it. -/
def createMenuContainer (u : Ui) : Ui :=
  { u with objs := u.objs.create .plain none, menuCont := some u.objs.length }.pass
    (some u.objs.length)

def construct (items : List Item) (u : Ui) : Ui := items.foldl Item.build (createMenuContainer u)

/-! ## Navigation -/

/-- `show_menu`. -/
def showMenu (menu : MenuId) (u : Ui) : Ui :=
  let u := { u with widget := fun _ => none }
  let u :=
    match u.menuCont with
    | none => u
    | some c => { u.pass (some c) with objs := u.objs.delete c, menuCont := none }
  construct (createMenu menu) { u with currentMenu := menu }

/-- `push_menu`; a full stack drops the history. -/
def pushMenu (menu : MenuId) (u : Ui) : Ui :=
  if u.menuStackTop < menuStackSize - 1 then
    showMenu menu { u with
      menuStackTop := u.menuStackTop + 1
      menuStack := u.menuStack.set (u.menuStackTop + 1).toNat u.currentMenu }
  else showMenu menu u

/-- `pop_menu`. -/
def popMenu (u : Ui) : Ui :=
  if 0 ≤ u.menuStackTop then
    showMenu (u.menuStack.getD u.menuStackTop.toNat .main)
      { u with menuStackTop := u.menuStackTop - 1 }
  else if u.currentMenu ≠ .main then showMenu .main u
  else u

/-! ## The callbacks -/

/-- The page that an `open_xxx_cb` pushes. -/
def ButtonCb.opens : ButtonCb → Option MenuId
  | .openMediaControllerCb => some .mediaController
  | .openSettingsCb => some .settings
  | .openDisplayCb => some .display
  | .openAudioCb => some .audio
  | .openInputCb => some .input
  | .openAboutCb => some .about
  | .openHardwareTestsCb => some .hardwareTests
  | .openHwDisplayCb => some .hwDisplay
  | .openHwTouchCb => some .hwTouch
  | .openHwEncoderCb => some .hwEncoder
  | .openHwBacklightCb => some .hwBacklight
  | .openHwMemoryCb => some .hwMemory
  | .openHwSdCb => some .hwSd
  | .openHwHapticsCb => some .hwHaptics
  | .openHwAudioMicCb => some .hwAudioMic
  | .openHwBatteryCb => some .hwBattery
  | .openHwWirelessCb => some .hwUnavailable
  | _ => none

/-- The Back buttons. -/
def ButtonCb.isBack : ButtonCb → Bool
  | .backCb | .audioMicBackCb => true
  | _ => false

/-- The callbacks that stay on the page; `failed` is what a start function
    returns. -/
def ButtonCb.act (failed : Bool) (u : Ui) : ButtonCb → Ui
  | .sdMountRefreshCb | .sdListRootCb | .sdUnmountCb => sdCardUpdateStatusLabel u
  | .sdReadWriteTestCb => sdCardUpdateStatusLabel (sdCardUpdateStatusLabel u)
  | .audioMicStartCb => if failed then u.refresh .audioMicStatusLabel else u
  | .audioDacStartToneCb => if failed then u.refresh .audioDacInfoLabel else u
  | .audioLoopbackStartCb => if failed then u.refresh .audioLoopbackStatusLabel else u
  | .audioMicOutputInfoCb => u.refresh .audioDacInfoLabel
  -- the others touch no widget
  | _ => u

/-- A button's callback. -/
def ButtonCb.run (failed : Bool) (u : Ui) (cb : ButtonCb) : Ui :=
  match cb.opens with
  | some menu => pushMenu menu u
  | none => if cb.isBack then popMenu u else cb.act failed u

/-- A slider's callback; `o` is the target of the event. -/
def SliderCb.run (o : Nat) (u : Ui) : SliderCb → Ui
  | .bezelSensitivityChangedCb | .backlightTestChangedCb => u.pass (some o)
  | .audioLoopbackGainChangedCb => (u.pass (some o)).refresh .audioLoopbackGainLabel

/-- `encoder_scroll_timer_cb`; `moved` says whether there are steps to consume. -/
def encoderScrollTimerCb (moved : Bool) (u : Ui) : Ui :=
  if u.menuCont = none then u
  else if !moved then u
  else if u.currentMenu = .hwEncoder then u.refresh .encoderTestLabel
  else if u.currentMenu = .mediaController then u
  else u.pass u.menuCont

def mediaStatusTimerCb (u : Ui) : Ui :=
  if u.currentMenu ≠ .mediaController ∨ u.widget .mediaStatusLabel = none then u
  else u.pass (u.widget .mediaStatusLabel)

/-- `audio_mic_ui_timer_cb`; each `switch` in it has a call for every state. -/
def audioMicUiTimerCb (u : Ui) : Ui :=
  if u.currentMenu ≠ .hwAudioMic then u
  else
    let v := (u.refresh .audioMicLevelBar).refresh .audioMicPeakLabel
    if v.widget .audioMicStatusLabel = none then v
    else
      (((v.refresh .audioDacInfoLabel).refresh .audioLoopbackGainLabel).refresh
        .audioLoopbackStatusLabel).refresh .audioMicStatusLabel

/-- `battery_adc_ui_timer_cb`; each of its branches sets all three. -/
def batteryAdcUiTimerCb (u : Ui) : Ui :=
  if u.currentMenu ≠ .hwBattery ∨ u.widget .batteryAdcStatusLabel = none ∨
      u.widget .batteryAdcDetailLabel = none ∨ u.widget .batteryAdcLevelBar = none then u
  else
    ((u.pass (u.widget .batteryAdcStatusLabel)).pass (u.widget .batteryAdcDetailLabel)).pass
      (u.widget .batteryAdcLevelBar)

/-- `lvgl_touch_cb`. -/
def lvglTouchCb (u : Ui) : Ui :=
  if u.currentMenu = .hwTouch ∧ u.widget .touchTestLabel ≠ none then
    u.pass (u.widget .touchTestLabel)
  else u

/-! ## The machine -/

/-- What LVGL calls next: the callback of a button or of a slider that is
    there, or of a timer. -/
inductive UiLab where
  | press (o : Nat) (failed : Bool)
  | slide (o : Nat)
  | encoderScroll (moved : Bool)
  | mediaStatus
  | audioMicUi
  | batteryAdcUi
  | touch
  deriving DecidableEq, Repr

inductive UiEv where
  /-- A button opened the page from another. -/
  | opened (page opener : MenuId)
  deriving DecidableEq, Repr

def uiStep (u : Ui) : UiLab → Option (Ui × List UiEv)
  | .press o failed =>
      match u.objs[o]? with
      | some ⟨.button cb, _, true⟩ =>
          some (cb.run failed u, (cb.opens.map fun page => .opened page u.currentMenu).toList)
      | _ => none
  | .slide o =>
      match u.objs[o]? with
      | some ⟨.slider cb, _, true⟩ => some (cb.run o u, [])
      | _ => none
  | .encoderScroll moved => some (encoderScrollTimerCb moved u, [])
  | .mediaStatus => some (mediaStatusTimerCb u, [])
  | .audioMicUi => some (audioMicUiTimerCb u, [])
  | .batteryAdcUi => some (batteryAdcUiTimerCb u, [])
  | .touch => some (lvglTouchCb u, [])

/-- `app_main` builds the main page. -/
def bootUi : Ui := construct createMainMenu {}

def menu : Machine Ui UiLab UiEv where
  start u := u = bootUi
  step := uiStep

end Menu
