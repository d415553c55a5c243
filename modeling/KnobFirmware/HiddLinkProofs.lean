import KnobFirmware.MediaCallbackProofs
import Mathlib.Data.List.Basic

/-! # The link — from the radio through `ble_hidd` to the module flags

    A connection is reported twice on its way up.  The Bluetooth task calls
    `hid_event_handler` of `ble_hidd.c`, which keeps `connected` and `conn_id` and
    posts a HIDD event; the event task calls `media_hidd_event_handler`, which
    keeps `s_connected` and asks for advertising again.  The second half closes a
    loop: only a device that advertises can be connected to.

    1. **The driver alone.**  `hid_event_handler` looks at no connection id when a
       link goes down, so its flag is right as long as no link goes down while
       another is up: `in_sync_iff`.
    2. **The loop closed.**  With the module's handlers behind the driver there is
       one PERMIT: an accepted request to advertise, the running advertisement,
       the link, or its end on the way back to the module.  `one_link` says that
       there is never a second one, and `never_dark` that the first is not lost
       unless advertising fails to start. -/

namespace HiddLink

open StepMachine EspErr MediaCallback

/-! ## The driver -/

/-- The events that `hid_event_handler` acts on, as far as connections go;
    `write` is a write to the control point, the protocol mode or a report. -/
inductive GattsEvent where
  | start
  | connect (connId : Nat)
  | disconnect (connId : Nat)
  | write
  deriving DecidableEq, Repr

/-- The connection fields of `esp_ble_hidd_dev_t`. -/
structure HiddDev where
  connected : Bool := false
  connId    : Nat := 0
  deriving DecidableEq, Repr

/-- `hid_event_handler` for the report map `deviceIndex` of `devicesLen`: the
    device and the events it posts. -/
def hidEventHandler (devicesLen deviceIndex : Nat) (dev : HiddDev) :
    GattsEvent → HiddDev × List HiddEvent
  | .start => (dev, if deviceIndex = devicesLen - 1 then [.start] else [])
  | .connect connId =>
      if dev.connected = false ∧ deviceIndex = devicesLen - 1 then
        ({ connected := true, connId := connId }, [.connect])
      else (dev, [])
  | .disconnect _ =>
      if dev.connected = true then ({ dev with connected := false }, [.disconnect])
      else (dev, [])
  | .write => (dev, [.other])

/-- An event of a connection reaches the handler of every report map. -/
def gattsEvent (devicesLen : Nat) (dev : HiddDev) (e : GattsEvent) :
    HiddDev × List HiddEvent :=
  (List.range devicesLen).foldl (fun r i =>
    ((hidEventHandler devicesLen i r.1 e).1, r.2 ++ (hidEventHandler devicesLen i r.1 e).2))
    (dev, [])

/-- The connection that `esp_ble_hidd_dev_input_set` sends a report to. -/
def inputTarget (dev : HiddDev) : Option Nat :=
  if dev.connected = true then some dev.connId else none

section Driver

variable {n connId : Nat} {dev : HiddDev}

/-- Only the last report map takes a connection. -/
theorem gattsEvent_connect (hn : 0 < n) :
    gattsEvent n dev (.connect connId) =
      if dev.connected = false then ({ connected := true, connId := connId }, [.connect])
      else (dev, []) := by
  obtain ⟨m, rfl⟩ : ∃ m, n = m + 1 := ⟨n - 1, by omega⟩
  have hfirst : ∀ k, k ≤ m → (List.range k).foldl (fun r i =>
      ((hidEventHandler (m + 1) i r.1 (.connect connId)).1,
        r.2 ++ (hidEventHandler (m + 1) i r.1 (.connect connId)).2)) (dev, []) = (dev, []) := by
    intro k hk
    induction k with
    | zero => rfl
    | succ k ih =>
        have hne : ¬ (dev.connected = false ∧ k = m + 1 - 1) := by omega
        rw [List.range_succ, List.foldl_append, ih (by omega), List.foldl_cons, List.foldl_nil]
        simp only [hidEventHandler]
        rw [if_neg hne]
        rfl
  rw [gattsEvent, List.range_succ, List.foldl_append, hfirst m (Nat.le_refl m), List.foldl_cons,
    List.foldl_nil]
  by_cases hc : dev.connected = false
  · simp [hidEventHandler, hc]
  · simp [hidEventHandler, hc]

/-- The first report map ends the connection, the others find it ended. -/
theorem gattsEvent_disconnect (hn : 0 < n) :
    gattsEvent n dev (.disconnect connId) =
      if dev.connected = true then ({ dev with connected := false }, [.disconnect])
      else (dev, []) := by
  have hrest : ∀ (l : List Nat) (d : HiddDev) (es : List HiddEvent), d.connected = false →
      l.foldl (fun r i =>
        ((hidEventHandler n i r.1 (.disconnect connId)).1,
          r.2 ++ (hidEventHandler n i r.1 (.disconnect connId)).2)) (d, es) = (d, es) := by
    intro l
    induction l with
    | nil => intro d es _; rfl
    | cons i l ih =>
        intro d es hd
        rw [List.foldl_cons]
        simp only [hidEventHandler, hd, Bool.false_eq_true, if_false, List.append_nil]
        exact ih d es hd
  obtain ⟨m, rfl⟩ : ∃ m, n = m + 1 := ⟨n - 1, by omega⟩
  rw [gattsEvent, List.range_succ_eq_map, List.foldl_cons]
  by_cases hc : dev.connected = true
  · simp only [hidEventHandler, hc, if_true, List.nil_append]
    exact hrest _ _ _ rfl
  · rw [Bool.not_eq_true] at hc
    simp only [hidEventHandler, hc, Bool.false_eq_true, if_false, List.append_nil]
    exact hrest _ _ _ hc

end Driver

/-! ## The driver alone -/

/-- The links that are up, as their events have reached the driver, and the
    driver. -/
structure Wired where
  links : List Nat
  dev   : HiddDev
  deriving DecidableEq, Repr

inductive WireLab where
  | up (connId : Nat)
  | down (connId : Nat)
  deriving DecidableEq, Repr

/-- A link comes up or goes down.  The trace is what the driver posts. -/
def wireStep (devicesLen : Nat) (s : Wired) : WireLab → Option (Wired × List HiddEvent)
  | .up c =>
      if c ∈ s.links then none
      else
        let r := gattsEvent devicesLen s.dev (.connect c)
        some (⟨c :: s.links, r.1⟩, r.2)
  | .down c =>
      if c ∈ s.links then
        let r := gattsEvent devicesLen s.dev (.disconnect c)
        some (⟨s.links.erase c, r.1⟩, r.2)
      else none

def wireBoot : Wired := ⟨[], {}⟩

/-- The driver behind any links. -/
def wire (devicesLen : Nat) : Machine Wired WireLab HiddEvent where
  start := fun s => s = wireBoot
  step := wireStep devicesLen

/-- The flag of the driver is right, and reports go to a link that is up. -/
def InSync (s : Wired) : Prop :=
  (s.dev.connected = true ↔ s.links ≠ []) ∧ ∀ c, inputTarget s.dev = some c → c ∈ s.links

/-- A link goes down only while it is the one that is up. -/
def SingleLink (s : Wired) : WireLab → Prop
  | .up _ => True
  | .down c => s.links = [c]

/-- The events posted are a CONNECT and a DISCONNECT in turn; `up` tells which
    came last. -/
inductive InTurn : List HiddEvent → Bool → Prop where
  | nil : InTurn [] false
  | connect {es : List HiddEvent} : InTurn es false → InTurn (es ++ [.connect]) true
  | disconnect {es : List HiddEvent} : InTurn es true → InTurn (es ++ [.disconnect]) false

section Wire

variable {n : Nat} {s s' : Wired} {tr es : List HiddEvent} {ls : List WireLab} {c : Nat}

theorem up_inv (hn : 0 < n) (h : wireStep n s (.up c) = some (s', es)) :
    c ∉ s.links ∧
      ((s.dev.connected = true ∧ s' = ⟨c :: s.links, s.dev⟩ ∧ es = []) ∨
        (s.dev.connected = false ∧ s' = ⟨c :: s.links, { connected := true, connId := c }⟩ ∧
          es = [.connect])) := by
  rw [wireStep, gattsEvent_connect hn] at h
  by_cases hc : c ∈ s.links
  · simp [hc] at h
  · cases hconn : s.dev.connected with
    | true =>
        simp only [hc, hconn, if_false, Bool.true_eq_false, Option.some.injEq,
          Prod.mk.injEq] at h
        exact ⟨hc, .inl ⟨rfl, h.1.symm, h.2.symm⟩⟩
    | false =>
        simp only [hc, hconn, if_false, if_true, Option.some.injEq, Prod.mk.injEq] at h
        exact ⟨hc, .inr ⟨rfl, h.1.symm, h.2.symm⟩⟩

theorem down_inv (hn : 0 < n) (h : wireStep n s (.down c) = some (s', es)) :
    c ∈ s.links ∧
      ((s.dev.connected = true ∧
          s' = ⟨s.links.erase c, { s.dev with connected := false }⟩ ∧ es = [.disconnect]) ∨
        (s.dev.connected = false ∧ s' = ⟨s.links.erase c, s.dev⟩ ∧ es = [])) := by
  rw [wireStep, gattsEvent_disconnect hn] at h
  by_cases hc : c ∈ s.links
  · cases hconn : s.dev.connected with
    | true =>
        simp only [hc, hconn, if_true, Option.some.injEq, Prod.mk.injEq] at h
        exact ⟨hc, .inl ⟨rfl, h.1.symm, h.2.symm⟩⟩
    | false =>
        simp only [hc, hconn, if_true, Bool.false_eq_true, if_false, Option.some.injEq,
          Prod.mk.injEq] at h
        exact ⟨hc, .inr ⟨rfl, h.1.symm, h.2.symm⟩⟩
  · simp [hc] at h

theorem erase_eq_nil_iff {links : List Nat} (h : c ∈ links) :
    links.erase c = [] ↔ links = [c] := by
  constructor
  · intro herase
    have hlen := List.length_erase_of_mem h
    rw [herase, List.length_nil] at hlen
    have hpos := List.length_pos_of_mem h
    obtain ⟨d, rfl⟩ := List.length_eq_one_iff.mp (by omega : links.length = 1)
    rw [List.mem_singleton.mp h]
  · rintro rfl
    simp

/-- From a state in sync a step keeps in sync exactly when no other link stays
    up. -/
theorem inSync_step_iff (hn : 0 < n) {l : WireLab} (h : InSync s)
    (hs : wireStep n s l = some (s', es)) : InSync s' ↔ SingleLink s l := by
  obtain ⟨hflag, htarget⟩ := h
  cases l with
  | up c =>
      obtain ⟨-, ⟨hconn, rfl, -⟩ | ⟨hconn, rfl, -⟩⟩ := up_inv hn hs
      · refine iff_of_true ⟨iff_of_true hconn (by simp), ?_⟩ trivial
        intro d hd
        exact List.mem_cons_of_mem c (htarget d hd)
      · refine iff_of_true ⟨iff_of_true rfl (by simp), ?_⟩ trivial
        intro d hd
        obtain rfl : c = d := by simpa [inputTarget] using hd
        exact List.mem_cons_self
  | down c =>
      obtain ⟨hc, hcases⟩ := down_inv hn hs
      have hup : s.dev.connected = true := by
        refine hflag.mpr ?_
        rintro hnil
        rw [hnil] at hc
        cases hc
      obtain ⟨-, rfl, -⟩ | ⟨hconn, -, -⟩ := hcases
      · constructor
        · rintro ⟨hflag', -⟩
          have hnil : s.links.erase c = [] := by
            by_contra hne
            exact absurd (hflag'.mpr hne) (by simp)
          exact (erase_eq_nil_iff hc).mp hnil
        · intro hsingle
          have hnil := (erase_eq_nil_iff hc).mpr hsingle
          refine ⟨iff_of_false (by simp) (by simp [hnil]), ?_⟩
          intro d hd
          simp [inputTarget] at hd
      · rw [hup] at hconn
        cases hconn

/-- **The driver's flag is right exactly while links go down alone.**  Along any
    run of links coming up and going down, for any number of report maps from one
    on, the driver says connected exactly when a link is up, and sends reports to a
    link that is up, in every state passed through, if and only if no link goes down
    while another one is up. -/
theorem in_sync_iff (hn : 0 < n) (h : Run (wire n) wireBoot ls s tr) :
    Always (wire n) wireBoot (fun s _ => InSync s) ls ↔
      Meets (wire n) wireBoot SingleLink ls := by
  refine always_iff_meets (I := fun _ _ => True) trivial (fun _ _ _ _ _ _ _ => trivial) ?_ ?_ h
  · exact ⟨iff_of_false (by decide) (by decide), by simp [inputTarget, wireBoot]⟩
  · intro s tr l s' es _ hP hs
    exact inSync_step_iff hn hP hs

/-- Whatever the links do, what the driver posts alternates, and its flag tells
    which event came last. -/
theorem posted_in_turn (hn : 0 < n) (h : Run (wire n) wireBoot ls s tr) :
    InTurn tr s.dev.connected := by
  refine h.invariant (P := fun s tr => InTurn tr s.dev.connected) .nil ?_
  intro s tr l s' es hP hs
  cases l with
  | up c =>
      obtain ⟨-, ⟨hconn, rfl, rfl⟩ | ⟨hconn, rfl, rfl⟩⟩ := up_inv hn hs
      · rw [List.append_nil]
        exact hP
      · rw [hconn] at hP
        exact .connect hP
  | down c =>
      obtain ⟨-, ⟨hconn, rfl, rfl⟩ | ⟨hconn, rfl, rfl⟩⟩ := down_inv hn hs
      · rw [hconn] at hP
        exact .disconnect hP
      · rw [List.append_nil]
        exact hP

/-- Of two links the second goes down first: the driver takes the first for down,
    too. -/
theorem in_sync_iff_at :
    ¬ Meets (wire 1) wireBoot SingleLink [.up 3, .up 4, .down 4] ∧
      ¬ Always (wire 1) wireBoot (fun s _ => InSync s) [.up 3, .up 4, .down 4] := by
  have hrun : exec (wire 1) wireBoot [.up 3, .up 4, .down 4] =
      some (⟨[3], { connected := false, connId := 3 }⟩, [.connect, .disconnect]) := by decide
  have hnot : ¬ Always (wire 1) wireBoot (fun s _ => InSync s) [.up 3, .up 4, .down 4] := by
    intro h
    have hsync := h _ [] _ _ (List.append_nil _).symm (run_of_exec hrun)
    exact absurd (hsync.1.mpr (by decide)) (by decide)
  exact ⟨fun h => hnot ((in_sync_iff Nat.one_pos (run_of_exec hrun)).mpr h), hnot⟩

end Wire

/-! ## The loop closed -/

/-- What waits for the Bluetooth task. -/
inductive BtcEvent where
  | gatts (e : GattsEvent)
  | gap (e : GapEvent)
  deriving DecidableEq, Repr

/-- The controller, the two event queues, the driver and the module.
    `requests` counts the requests to advertise that were accepted and have not
    been answered. -/
structure LinkSys where
  requests : Nat := 0
  radio    : Bool := false
  links    : List Nat := []
  btc      : List BtcEvent := []
  dev      : HiddDev := {}
  posted   : List HiddEvent := []
  flags    : MediaFlags := {}
  deriving DecidableEq, Repr

/-- What happens next: the controller answers a request to advertise, a host
    connects, a link ends, another event arrives; or the Bluetooth task or the
    event task handles its next event, `err` being what
    `esp_ble_gap_start_advertising` returns if it is called. -/
inductive LinkLab where
  | startDone (status : Int)
  | up (connId : Nat)
  | down (connId : Nat)
  | notify (e : BtcEvent)
  | btc (err : EspErr)
  | event (err : EspErr)
  deriving DecidableEq, Repr

/-- The events that may arrive at any time.  The others come and go with a
    connection; the module stops neither the advertising nor the profile. -/
def BtcEvent.notice : BtcEvent → Bool
  | .gatts .start | .gatts .write => true
  | .gap .advDataSetComplete | .gap .secReq | .gap (.authCmpl _) | .gap .other => true
  | _ => false

def HiddEvent.notice : HiddEvent → Bool
  | .start | .other => true
  | _ => false

/-- A handler of the module: its flags, and one more request for each call that
    the driver accepts. -/
def LinkSys.react (s : LinkSys) (e : MediaEvent) (err : EspErr) : LinkSys :=
  { s with
    flags := (handlerRun s.flags e err).after
    requests := s.requests + ((handlerRun s.flags e err).calls.filter (·.err = espOk)).length }

/-- `.queue_size` of the event loop; a post waits for room. -/
def eventQueueSize : Nat := 5

/-- The step of the whole link, a handler in one piece. -/
def linkStep (s : LinkSys) : LinkLab → Option (LinkSys × List HiddEvent)
  | .startDone status =>
      match s.requests with
      | 0 => none
      | n + 1 =>
          some ({ s with
            requests := n
            radio := s.radio || status == espBtStatusSuccess
            btc := s.btc ++ [.gap (.advStartComplete status)] }, [])
  | .up c =>
      -- a host can connect only to a device that advertises, which then stops
      if s.radio = true ∧ c ∉ s.links then
        some ({ s with
          radio := false, links := c :: s.links, btc := s.btc ++ [.gatts (.connect c)] }, [])
      else none
  | .down c =>
      if c ∈ s.links then
        some ({ s with
          links := s.links.erase c, btc := s.btc ++ [.gatts (.disconnect c)] }, [])
      else none
  | .notify e => if e.notice then some ({ s with btc := s.btc ++ [e] }, []) else none
  | .btc err =>
      match s.btc with
      | [] => none
      | .gap e :: rest => some (LinkSys.react { s with btc := rest } (.gap e) err, [])
      | .gatts e :: rest =>
          if s.posted.length < eventQueueSize then
            let r := gattsEvent 1 s.dev e
            some ({ s with btc := rest, dev := r.1, posted := s.posted ++ r.2 }, r.2)
          else none
  | .event err =>
      match s.posted with
      | [] => none
      | e :: rest => some (LinkSys.react { s with posted := rest } (.hidd e) err, [])

/-- The link as a machine; it starts with nothing connected and nothing asked. -/
def link : Machine LinkSys LinkLab HiddEvent where
  start := fun s => s = {}
  step := linkStep

/-! ### The permit -/

/-- What an observer of the link sees of a state: the events of the link alone
    are kept in the queues. -/
structure View where
  requests     : Nat
  radio        : Bool
  links        : List Nat
  btc          : List BtcEvent
  posted       : List HiddEvent
  connected    : Bool
  sConnected   : Bool
  sAdvertising : Bool

def LinkSys.view (s : LinkSys) : View where
  requests := s.requests
  radio := s.radio
  links := s.links
  btc := s.btc.filter (!·.notice)
  posted := s.posted.filter (!HiddEvent.notice ·)
  connected := s.dev.connected
  sConnected := s.flags.sConnected
  sAdvertising := s.flags.sAdvertising

/-- Without a permit, or with a start that failed and is yet to be reported. -/
def downView (btc : List BtcEvent) (sAdvertising : Bool) : View where
  requests := 0
  radio := false
  links := []
  btc := btc
  posted := []
  connected := false
  sConnected := false
  sAdvertising := sAdvertising

/-- The events that one permit sends to the Bluetooth task. -/
def btcScript (c : Nat) : List BtcEvent :=
  [.gap (.advStartComplete espBtStatusSuccess), .gatts (.connect c), .gatts (.disconnect c)]

/-- The events that one permit has the driver post. -/
def postScript : List HiddEvent := [.connect, .disconnect]

/-- The permit on its way: requested, on the air, a link, a link that ended
    (`stage` 0 to 3); `b` events of its script have been handled by the Bluetooth
    task and `p` of those posted by the event task. -/
def liveView (c stage b p : Nat) : View where
  requests := if stage = 0 then 1 else 0
  radio := stage = 1
  links := if stage = 2 then [c] else []
  btc := ((btcScript c).take stage).drop b
  posted := (postScript.take (b - 1)).drop p
  connected := b = 2
  sConnected := p = 1
  sAdvertising := p = 0

/-- Both prerequisites of advertising. -/
def Prepared (f : MediaFlags) : Prop := f.sHidStarted = true ∧ f.sAdvDataReady = true

/-- The positions of a permit: each task is behind the one before it, and the
    last event handled hands the permit back. -/
structure Position (stage b p : Nat) : Prop where
  stage_le : stage ≤ 3
  btc_le   : b ≤ stage
  event_le : p ≤ b - 1
  last_le  : p ≤ 1

/-- Where the permit is.  Only a start that fails loses it: while `ok`, all has
    gone well, it is missing only before the first request. -/
inductive Phase (ok : Prop) (s : LinkSys) : Prop where
  | idle : s.view = downView [] false → (ok → ¬ Prepared s.flags) → Phase ok s
  | failed {status : Int} : status ≠ espBtStatusSuccess →
      s.view = downView [.gap (.advStartComplete status)] true → ¬ ok → Phase ok s
  | live (c stage b p : Nat) : Position stage b p → s.view = liveView c stage b p →
      (b = 2 → s.dev.connId = c) → Prepared s.flags → Phase ok s

/-! ### The handlers, seen from the link -/

section Handlers

variable {f : MediaFlags} {err : EspErr}

/-- `media_try_start_advertising` asks where it may, and only there. -/
theorem tryStart_cases (f : MediaFlags) (err : EspErr) :
    (Prepared f ∧ f.sConnected = false ∧ f.sAdvertising = false ∧
        runHandler err f mediaTryStartAdvertising =
          ({ f with sAdvertising := err == espOk }, [⟨f, err⟩])) ∨
      (¬ (Prepared f ∧ f.sConnected = false ∧ f.sAdvertising = false) ∧
        runHandler err f mediaTryStartAdvertising = (f, [])) := by
  rw [runHandler_tryStart]
  by_cases hmay : Prepared f ∧ f.sConnected = false ∧ f.sAdvertising = false
  · obtain ⟨⟨hstarted, hdata⟩, hconn, hadv⟩ := hmay
    refine .inl ⟨⟨hstarted, hdata⟩, hconn, hadv, ?_⟩
    simp [hstarted, hdata, hconn, hadv]
  · refine .inr ⟨hmay, if_neg ?_⟩
    intro hguard
    simp only [Bool.and_eq_true, Bool.not_eq_true'] at hguard
    exact hmay ⟨⟨hguard.1.1.1, hguard.1.1.2⟩, hguard.1.2, hguard.2⟩

/-- The events whose handlers do no more than try to advertise. -/
def MayTry : MediaEvent → Prop
  | .gap e => (BtcEvent.gap e).notice = true
  | .hidd e => HiddEvent.notice e = true

/-- What such a handler can do: nothing that the link sees, or one call, made
    while the module is prepared, not connected and not advertising. -/
structure Tried (f : MediaFlags) (err : EspErr) (r : HandlerRun) : Prop where
  connected : r.after.sConnected = f.sConnected
  prepared  : Prepared f → Prepared r.after
  called    :
    (r.calls = [] ∧ r.after.sAdvertising = f.sAdvertising ∧
      (Prepared r.after → f.sConnected = false → f.sAdvertising = false → Prepared f)) ∨
    (r.calls.map StartCall.err = [err] ∧ f.sConnected = false ∧ f.sAdvertising = false ∧
      Prepared r.after ∧ r.after.sAdvertising = (err == espOk))

/-- A handler that sets a prerequisite and tries. -/
theorem tried_of_tryStart {e : MediaEvent} {f' : MediaFlags}
    (hrun : runHandler err f (handlerOf e) = runHandler err f' mediaTryStartAdvertising)
    (hconn : f'.sConnected = f.sConnected) (hadv : f'.sAdvertising = f.sAdvertising)
    (hprep : Prepared f → Prepared f') : Tried f err (handlerRun f e err) := by
  have hafter : (handlerRun f e err).after =
      (runHandler err f' mediaTryStartAdvertising).1 := congrArg Prod.fst hrun
  have hcalls : (handlerRun f e err).calls =
      (runHandler err f' mediaTryStartAdvertising).2 := congrArg Prod.snd hrun
  rcases tryStart_cases f' err with ⟨hp, hc, ha, heq⟩ | ⟨hnot, heq⟩
  · rw [heq] at hafter hcalls
    refine ⟨?_, ?_, .inr ⟨?_, hconn ▸ hc, hadv ▸ ha, ?_, ?_⟩⟩
    · rw [hafter]
      exact hconn
    · intro _
      rw [hafter]
      exact hp
    · rw [hcalls]
      rfl
    · rw [hafter]
      exact hp
    · rw [hafter]
  · rw [heq] at hafter hcalls
    refine ⟨?_, ?_, .inl ⟨hcalls, ?_, ?_⟩⟩
    · rw [hafter]
      exact hconn
    · intro hp
      rw [hafter]
      exact hprep hp
    · rw [hafter]
      exact hadv
    · intro hp hc ha
      rw [hafter] at hp
      exact absurd ⟨hp, hconn.trans hc, hadv.trans ha⟩ hnot

theorem tried_of_mayTry {e : MediaEvent} (h : MayTry e) : Tried f err (handlerRun f e err) := by
  -- a handler without a body
  have quiet : handlerOf e = [] → Tried f err (handlerRun f e err) := by
    intro hnil
    have hrun : runHandler err f (handlerOf e) = (f, []) := by
      rw [hnil]
      rfl
    have hafter : (handlerRun f e err).after = f := congrArg Prod.fst hrun
    have hcalls : (handlerRun f e err).calls = [] := congrArg Prod.snd hrun
    refine ⟨?_, ?_, .inl ⟨hcalls, ?_, ?_⟩⟩
    · rw [hafter]
    · rw [hafter]
      exact id
    · rw [hafter]
    · rw [hafter]
      exact fun hp _ _ => hp
  cases e with
  | gap e =>
      cases e with
      | advDataSetComplete =>
          exact @tried_of_tryStart f err _ { f with sAdvDataReady := true } rfl rfl rfl
            fun hp => ⟨hp.1, rfl⟩
      | secReq | authCmpl | other => exact quiet rfl
      | advStartComplete | advStopComplete => cases h
  | hidd e =>
      cases e with
      | start =>
          exact @tried_of_tryStart f err _ { f with sHidStarted := true, sReady := true } rfl rfl
            rfl fun hp => ⟨rfl, hp.2⟩
      | other => exact quiet rfl
      | connect | disconnect | stop => cases h

/-- The handler of the end of a link asks for advertising again. -/
theorem handlerRun_disconnect (h : Prepared f) :
    (handlerRun f (.hidd .disconnect) err).after =
        { f with sConnected := false, sAdvertising := err == espOk } ∧
      (handlerRun f (.hidd .disconnect) err).calls.map StartCall.err = [err] := by
  have hrun : runHandler err f (handlerOf (.hidd .disconnect)) =
      runHandler err { f with sConnected := false, sAdvertising := false }
        mediaTryStartAdvertising := rfl
  rcases tryStart_cases { f with sConnected := false, sAdvertising := false } err with
    ⟨-, -, -, heq⟩ | ⟨hnot, -⟩
  · rw [handlerRun]
    simp only
    rw [hrun, heq]
    exact ⟨rfl, rfl⟩
  · exact absurd ⟨h, rfl, rfl⟩ hnot

/-- What the accepted calls among `calls` add to the requests. -/
theorem accepted_length {calls : List StartCall} (h : calls.map StartCall.err = [err]) :
    (calls.filter (·.err = espOk)).length = if err = espOk then 1 else 0 := by
  obtain ⟨call, rfl, rfl⟩ := List.map_eq_singleton_iff.mp h
  by_cases hok : call.err = espOk <;> simp [hok]

end Handlers

/-! ### One step -/

section Steps

variable {s s' : LinkSys} {es : List HiddEvent} {err : EspErr}

/-- A handler that may try, seen from the link. -/
theorem react_mayTry {e : MediaEvent} (h : MayTry e) :
    (Prepared s.flags → Prepared (s.react e err).flags) ∧
      (((s.react e err).view = s.view ∧
          (Prepared (s.react e err).flags → s.flags.sConnected = false →
            s.flags.sAdvertising = false → Prepared s.flags)) ∨
        (s.flags.sConnected = false ∧ s.flags.sAdvertising = false ∧
          Prepared (s.react e err).flags ∧
          (s.react e err).view = { s.view with
            requests := s.requests + if err = espOk then 1 else 0
            sAdvertising := err == espOk })) := by
  obtain ⟨hconn, hprep, hcases⟩ := @tried_of_mayTry s.flags err e h
  refine ⟨hprep, ?_⟩
  rcases hcases with ⟨hcalls, hadv, hback⟩ | ⟨hcalls, hc, ha, hp, hadv⟩
  · refine .inl ⟨?_, hback⟩
    simp only [LinkSys.view, LinkSys.react, hcalls, hconn, hadv, List.filter_nil,
      List.length_nil, Nat.add_zero]
  · refine .inr ⟨hc, ha, hp, ?_⟩
    simp only [LinkSys.view, LinkSys.react, accepted_length hcalls, hconn, hadv]

/-- The next event of a permit for the Bluetooth task. -/
theorem btcScript_head {c stage b p : Nat} {e : BtcEvent} {rest : List BtcEvent}
    (hpos : Position stage b p) (h : ((btcScript c).take stage).drop b = e :: rest) :
    b < stage ∧ rest = ((btcScript c).take stage).drop (b + 1) ∧
      ((b = 0 ∧ e = .gap (.advStartComplete espBtStatusSuccess)) ∨
        (b = 1 ∧ e = .gatts (.connect c)) ∨ (b = 2 ∧ e = .gatts (.disconnect c))) := by
  obtain ⟨hstage, hbtc, -, -⟩ := hpos
  have hlt : b < stage := by
    by_contra hge
    rw [List.drop_eq_nil_of_le] at h
    · cases h
    · rw [List.length_take]
      omega
  obtain ⟨rfl, hs⟩ | ⟨rfl, hs⟩ | ⟨rfl, rfl⟩ :
      (b = 0 ∧ (stage = 1 ∨ stage = 2 ∨ stage = 3)) ∨ (b = 1 ∧ (stage = 2 ∨ stage = 3)) ∨
        (b = 2 ∧ stage = 3) := by omega
  · rcases hs with rfl | rfl | rfl <;> cases h <;> exact ⟨hlt, rfl, .inl ⟨rfl, rfl⟩⟩
  · rcases hs with rfl | rfl <;> cases h <;> exact ⟨hlt, rfl, .inr (.inl ⟨rfl, rfl⟩)⟩
  · cases h
    exact ⟨hlt, rfl, .inr (.inr ⟨rfl, rfl⟩)⟩

/-- The next event of a permit for the event task. -/
theorem postScript_head {stage b p : Nat} {e : HiddEvent} {rest : List HiddEvent}
    (hpos : Position stage b p) (h : (postScript.take (b - 1)).drop p = e :: rest) :
    p < b - 1 ∧ rest = (postScript.take (b - 1)).drop (p + 1) ∧
      ((p = 0 ∧ e = .connect) ∨ (p = 1 ∧ e = .disconnect)) := by
  obtain ⟨hstage, hbtc, hevent, hlast⟩ := hpos
  have hlt : p < b - 1 := by
    by_contra hge
    rw [List.drop_eq_nil_of_le] at h
    · cases h
    · rw [List.length_take]
      omega
  obtain ⟨rfl, hb⟩ | ⟨rfl, rfl⟩ : (p = 0 ∧ (b = 2 ∨ b = 3)) ∨ (p = 1 ∧ b = 3) := by omega
  · rcases hb with rfl | rfl <;> cases h <;> exact ⟨hlt, rfl, .inl ⟨rfl, rfl⟩⟩
  · cases h
    exact ⟨hlt, rfl, .inr ⟨rfl, rfl⟩⟩

theorem view_inv {v : View} (h : s.view = v) :
    s.requests = v.requests ∧ s.radio = v.radio ∧ s.links = v.links ∧
      s.btc.filter (!·.notice) = v.btc ∧ s.posted.filter (!HiddEvent.notice ·) = v.posted ∧
      s.dev.connected = v.connected ∧ s.flags.sConnected = v.sConnected ∧
      s.flags.sAdvertising = v.sAdvertising := by
  subst h
  exact ⟨rfl, rfl, rfl, rfl, rfl, rfl, rfl, rfl⟩

/-- What the link does not see leaves the phase. -/
theorem Phase.of_view {ok : Prop} (h : Phase ok s) (hview : s'.view = s.view)
    (hdev : s'.dev = s.dev) (hflags : s'.flags = s.flags) : Phase ok s' := by
  cases h with
  | idle hidle hdark =>
      refine .idle (hview.trans hidle) ?_
      rw [hflags]
      exact hdark
  | failed hstatus hfailed hok => exact .failed hstatus (hview.trans hfailed) hok
  | live c stage b p hpos hlive hconn hprep =>
      refine .live c stage b p hpos (hview.trans hlive) ?_ ?_
      · rw [hdev]
        exact hconn
      · rw [hflags]
        exact hprep

/-- A handler that may try to advertise does so only without a permit. -/
theorem Phase.mayTry {ok : Prop} {e : MediaEvent} (h : Phase ok s) (he : MayTry e)
    (hok : ok → err = espOk) : Phase ok (s.react e err) := by
  obtain ⟨hkeep, hcases⟩ := @react_mayTry s err e he
  have hconn : s.view.sConnected = s.flags.sConnected := rfl
  have hadv : s.view.sAdvertising = s.flags.sAdvertising := rfl
  rcases hcases with ⟨hview, hback⟩ | ⟨hc, ha, hprep, hview⟩
  · cases h with
    | idle hidle hdark =>
        rw [hidle] at hconn hadv
        refine .idle (hview.trans hidle) fun hall hprep => ?_
        exact hdark hall (hback hprep hconn.symm hadv.symm)
    | failed hstatus hfailed hall => exact .failed hstatus (hview.trans hfailed) hall
    | live c stage b p hpos hlive hid hprep =>
        exact .live c stage b p hpos (hview.trans hlive) hid (hkeep hprep)
  · cases h with
    | idle hidle hdark =>
        -- the call is accepted and there is a permit, or it is not
        have hrequests : s.requests = 0 := congrArg View.requests hidle
        rw [hidle] at hview
        by_cases hacc : err = espOk
        · refine .live 0 0 0 0 ⟨?_, ?_, ?_, ?_⟩ ?_ ?_ hprep
          · exact Nat.zero_le _
          · exact Nat.le_refl _
          · exact Nat.zero_le _
          · exact Nat.zero_le _
          · rw [hview, hrequests, hacc]
            rfl
          · intro h2
            cases h2
        · refine .idle ?_ fun hall => absurd (hok hall) hacc
          rw [hview, hrequests, if_neg hacc, beq_eq_false_iff_ne.mpr hacc]
          rfl
    | failed hstatus hfailed =>
        rw [hfailed, ha] at hadv
        cases hadv
    | live c stage b p hpos hlive =>
        rw [hlive, hc] at hconn
        rw [hlive, ha] at hadv
        have h1 : ¬ p = 1 := of_decide_eq_false hconn
        have h0 : ¬ p = 0 := of_decide_eq_false hadv
        have hlast := hpos.last_le
        omega

/-- Nothing that the step reports went wrong. -/
def Succeeds : LinkLab → Prop
  | .startDone status => status = espBtStatusSuccess
  | .btc err | .event err => err = espOk
  | .up _ | .down _ | .notify _ => True

instance : DecidablePred Succeeds
  | .startDone _ => inferInstanceAs (Decidable (_ = _))
  | .btc _ => inferInstanceAs (Decidable (_ = _))
  | .event _ => inferInstanceAs (Decidable (_ = _))
  | .up _ => isTrue trivial
  | .down _ => isTrue trivial
  | .notify _ => isTrue trivial

section Phases

variable {ok : Prop}

/-- The controller answers a request. -/
theorem phase_startDone {status : Int} (h : Phase ok s)
    (hs : linkStep s (.startDone status) = some (s', es))
    (hok : ok → status = espBtStatusSuccess) : Phase ok s' := by
  cases hreq : s.requests with
  | zero => simp [linkStep, hreq] at hs
  | succ n =>
      simp only [linkStep, hreq, Option.some.injEq, Prod.mk.injEq] at hs
      obtain ⟨rfl, -⟩ := hs
      cases h with
      | idle hdown | failed _ hdown =>
          have hnone : s.requests = 0 := congrArg View.requests hdown
          rw [hreq] at hnone
          cases hnone
      | live c stage b p hpos hlive hid hprep =>
          obtain ⟨hrequests, hradio, hlinks, hbtc, hposted, hconn, hsconn, hadv⟩ := view_inv hlive
          obtain rfl : stage = 0 := by
            by_contra hne
            rw [hreq] at hrequests
            simp [liveView, hne] at hrequests
          obtain rfl : b = 0 := Nat.le_zero.mp hpos.btc_le
          obtain rfl : p = 0 := Nat.le_zero.mp hpos.event_le
          obtain rfl : n = 0 := by
            rw [hreq] at hrequests
            simpa [liveView] using hrequests
          by_cases hstatus : status = espBtStatusSuccess
          · refine .live c 1 0 0
              ⟨by decide, by decide, by decide, by decide⟩ ?_ (fun h2 => by cases h2) hprep
            simp only [LinkSys.view, List.filter_append, hradio, hlinks, hbtc, hposted, hconn,
              hsconn, hadv, hstatus]
            rfl
          · refine .failed hstatus ?_ fun hall => hstatus (hok hall)
            simp only [LinkSys.view, List.filter_append, hradio, hlinks, hbtc, hposted, hconn,
              hsconn, hadv, beq_eq_false_iff_ne.mpr hstatus]
            rfl

/-- A host connects. -/
theorem phase_up {d : Nat} (h : Phase ok s) (hs : linkStep s (.up d) = some (s', es)) :
    Phase ok s' := by
  simp only [linkStep] at hs
  split at hs
  · rename_i hup
    obtain ⟨rfl, -⟩ := Prod.mk.inj (Option.some.inj hs)
    cases h with
    | idle hdown | failed _ hdown =>
        have hoff : s.radio = false := congrArg View.radio hdown
        rw [hup.1] at hoff
        cases hoff
    | live c stage b p hpos hlive hid hprep =>
        obtain ⟨hrequests, hradio, hlinks, hbtc, hposted, hconn, hsconn, hadv⟩ := view_inv hlive
        obtain rfl : stage = 1 := of_decide_eq_true (hradio.symm.trans hup.1)
        obtain ⟨-, hb, hp, -⟩ := hpos
        obtain rfl : p = 0 := by omega
        refine .live d 2 b 0 ⟨by decide, by omega, by omega,
          by decide⟩ ?_ (fun h2 => by omega) hprep
        simp only [LinkSys.view, List.filter_append, hrequests, hlinks, hbtc, hposted, hconn,
          hsconn, hadv]
        obtain rfl | rfl : b = 0 ∨ b = 1 := by omega
        · rfl
        · rfl
  · cases hs

/-- A link ends. -/
theorem phase_down {d : Nat} (h : Phase ok s) (hs : linkStep s (.down d) = some (s', es)) :
    Phase ok s' := by
  simp only [linkStep] at hs
  split at hs
  · rename_i hmem
    obtain ⟨rfl, -⟩ := Prod.mk.inj (Option.some.inj hs)
    cases h with
    | idle hdown | failed _ hdown =>
        have hnone : s.links = [] := congrArg View.links hdown
        rw [hnone] at hmem
        cases hmem
    | live c stage b p hpos hlive hid hprep =>
        obtain ⟨hrequests, hradio, hlinks, hbtc, hposted, hconn, hsconn, hadv⟩ := view_inv hlive
        obtain rfl : stage = 2 := by
          by_contra hne
          rw [hlinks] at hmem
          simp [liveView, hne] at hmem
        obtain rfl : d = c := by
          rw [hlinks] at hmem
          simpa [liveView] using hmem
        obtain ⟨-, hb, hp, hlast⟩ := hpos
        refine .live d 3 b p
          ⟨Nat.le_refl 3, by omega, hp, hlast⟩ ?_ hid hprep
        have herase : s.links.erase d = [] := by
          rw [hlinks]
          simp [liveView]
        simp only [LinkSys.view, List.filter_append, hrequests, hradio, hbtc, hposted, hconn,
          hsconn, hadv, herase]
        obtain rfl | rfl | rfl : b = 0 ∨ b = 1 ∨ b = 2 := by omega
        · rfl
        · rfl
        · rfl
  · cases hs

/-- The report of a start reaches the module. -/
theorem phase_advStart {status : Int} {rest : List BtcEvent} (h : Phase ok s)
    (hbtcHead : s.btc = .gap (.advStartComplete status) :: rest) :
    Phase ok (LinkSys.react { s with btc := rest } (.gap (.advStartComplete status)) err) := by
  have hseen : s.btc.filter (!·.notice) =
      .gap (.advStartComplete status) :: rest.filter (!·.notice) := by
    rw [hbtcHead]
    rfl
  cases h with
  | idle hdown =>
      have hnone : s.btc.filter (!·.notice) = [] := congrArg View.btc hdown
      rw [hseen] at hnone
      cases hnone
  | @failed status' hstatus hdown hbad =>
      obtain ⟨hrequests, hradio, hlinks, hbtc, hposted, hconn, hsconn, -⟩ := view_inv hdown
      rw [hseen] at hbtc
      obtain ⟨hhead, hrest⟩ := List.cons.inj hbtc
      obtain rfl : status = status' := by
        simpa using hhead
      refine .idle ?_ fun hall => absurd hall hbad
      have hadv : (status == espBtStatusSuccess) = false := beq_eq_false_iff_ne.mpr hstatus
      show View.mk s.requests s.radio s.links (rest.filter (!·.notice))
        (s.posted.filter (!HiddEvent.notice ·)) s.dev.connected s.flags.sConnected
        (status == espBtStatusSuccess) = _
      rw [hrequests, hradio, hlinks, hrest, hposted, hconn, hsconn, hadv]
      rfl
  | live c stage b p hpos hlive hid hprep =>
      obtain ⟨hrequests, hradio, hlinks, hbtc, hposted, hconn, hsconn, hadv⟩ := view_inv hlive
      rw [hseen] at hbtc
      obtain ⟨hlt, hrest, hhead⟩ := btcScript_head hpos hbtc.symm
      obtain ⟨rfl, hack⟩ : b = 0 ∧ status = espBtStatusSuccess := by
        simpa using hhead
      obtain ⟨hstage, -, hp, -⟩ := hpos
      obtain rfl : p = 0 := by omega
      refine .live c stage 1 0
        ⟨hstage, hlt, by decide, by decide⟩ ?_ (fun h2 => by cases h2) hprep
      show View.mk s.requests s.radio s.links (rest.filter (!·.notice))
        (s.posted.filter (!HiddEvent.notice ·)) s.dev.connected s.flags.sConnected
        (status == espBtStatusSuccess) = _
      rw [hrequests, hradio, hlinks, hrest, hposted, hconn, hsconn, hack]
      rfl

/-- No report of a stop is on the way. -/
theorem phase_noStop {rest : List BtcEvent} (h : Phase ok s)
    (hhead : s.btc = .gap .advStopComplete :: rest) : False := by
  have hseen : s.btc.filter (!·.notice) =
      .gap .advStopComplete :: rest.filter (!·.notice) := by
    rw [hhead]
    rfl
  cases h with
  | idle hdown =>
      have hnone : s.btc.filter (!·.notice) = [] := congrArg View.btc hdown
      rw [hseen] at hnone
      cases hnone
  | failed _ hdown =>
      have hone : s.btc.filter (!·.notice) = [_] := congrArg View.btc hdown
      rw [hseen] at hone
      cases hone
  | live c stage b p hpos hlive =>
      have hscript := (hseen.symm.trans (congrArg View.btc hlive)).symm
      obtain ⟨-, -, ⟨-, he⟩ | ⟨-, he⟩ | ⟨-, he⟩⟩ := btcScript_head hpos hscript <;> cases he

theorem gattsEvent_one (dev : HiddDev) (e : GattsEvent) :
    gattsEvent 1 dev e = hidEventHandler 1 0 dev e := by
  simp [gattsEvent]

/-- A GATTS event reaches the driver. -/
theorem phase_gatts {e : GattsEvent} {rest : List BtcEvent} (h : Phase ok s)
    (hhead : s.btc = .gatts e :: rest) :
    Phase ok { s with
      btc := rest, dev := (gattsEvent 1 s.dev e).1
      posted := s.posted ++ (gattsEvent 1 s.dev e).2 } := by
  rw [gattsEvent_one]
  have hseen : s.btc.filter (!·.notice) =
      (if (BtcEvent.gatts e).notice then [] else [BtcEvent.gatts e]) ++
        rest.filter (!·.notice) := by
    rw [hhead, List.filter_cons]
    cases hn : (BtcEvent.gatts e).notice <;> rfl
  by_cases hnotice : (BtcEvent.gatts e).notice = true
  · -- the driver is left alone, and the link does not see the event posted
    rw [hnotice] at hseen
    refine h.of_view ?_ ?_ rfl
    · cases e with
      | start | write =>
          simp only [LinkSys.view, hidEventHandler, List.filter_append, hseen]
          simp [HiddEvent.notice]
      | connect | disconnect => cases hnotice
    · cases e with
      | start | write => rfl
      | connect | disconnect => cases hnotice
  · rw [if_neg hnotice, List.singleton_append] at hseen
    cases h with
    | idle hdown =>
        have hnone : s.btc.filter (!·.notice) = [] := congrArg View.btc hdown
        rw [hseen] at hnone
        cases hnone
    | failed _ hdown =>
        have hone : s.btc.filter (!·.notice) = [_] := congrArg View.btc hdown
        rw [hseen] at hone
        cases hone
    | live c stage b p hpos hlive hid hprep =>
        obtain ⟨hrequests, hradio, hlinks, hbtc, hposted, hconn, hsconn, hadv⟩ := view_inv hlive
        rw [hseen] at hbtc
        obtain ⟨hlt, hrest, hcases⟩ := btcScript_head hpos hbtc.symm
        obtain ⟨hstage, -, hp, hlast⟩ := hpos
        rcases hcases with ⟨-, he⟩ | ⟨rfl, he⟩ | ⟨rfl, he⟩
        · cases he
        · obtain rfl := BtcEvent.gatts.inj he
          obtain rfl : p = 0 := by omega
          have hdown : s.dev.connected = false := hconn
          refine .live c stage 2 0
            ⟨hstage, hlt, by decide, by decide⟩ ?_ ?_ hprep
          · simp only [LinkSys.view, hidEventHandler, hdown, and_self, if_true, List.filter_append,
              hrequests, hradio, hlinks, hrest, hposted, hsconn, hadv]
            rfl
          · intro _
            simp [hidEventHandler, hdown]
        · obtain rfl := BtcEvent.gatts.inj he
          have hup : s.dev.connected = true := hconn
          refine .live c stage 3 p
            ⟨hstage, hlt, by omega, hlast⟩ ?_ (fun h2 => by cases h2) hprep
          simp only [LinkSys.view, hidEventHandler, hup, if_true, List.filter_append, hrequests,
            hradio, hlinks, hrest, hposted, hsconn, hadv]
          obtain rfl | rfl : p = 0 ∨ p = 1 := by omega
          · rfl
          · rfl

/-- A HIDD event reaches the module. -/
theorem phase_event {e : HiddEvent} {rest : List HiddEvent} (h : Phase ok s)
    (hhead : s.posted = e :: rest) (hok : ok → err = espOk) :
    Phase ok (LinkSys.react { s with posted := rest } (.hidd e) err) := by
  have hseen : s.posted.filter (!HiddEvent.notice ·) =
      (if HiddEvent.notice e then [] else [e]) ++ rest.filter (!HiddEvent.notice ·) := by
    rw [hhead, List.filter_cons]
    cases hn : HiddEvent.notice e <;> rfl
  by_cases hnotice : HiddEvent.notice e = true
  · rw [hnotice] at hseen
    have hpop : Phase ok { s with posted := rest } := by
      refine h.of_view ?_ rfl rfl
      simp only [LinkSys.view, hseen]
      rfl
    exact hpop.mayTry hnotice hok
  · rw [if_neg hnotice, List.singleton_append] at hseen
    cases h with
    | idle hdown | failed _ hdown =>
        have hnone : s.posted.filter (!HiddEvent.notice ·) = [] := congrArg View.posted hdown
        rw [hseen] at hnone
        cases hnone
    | live c stage b p hpos hlive hid hprep =>
        obtain ⟨hrequests, hradio, hlinks, hbtc, hposted, hconn, hsconn, hadv⟩ := view_inv hlive
        rw [hseen] at hposted
        obtain ⟨hlt, hrest, hcases⟩ := postScript_head hpos hposted.symm
        obtain ⟨hstage, hb, hp, -⟩ := hpos
        rcases hcases with ⟨rfl, rfl⟩ | ⟨rfl, rfl⟩
        · refine .live c stage b 1
            ⟨hstage, hb, hlt, by decide⟩ ?_ hid hprep
          show View.mk s.requests s.radio s.links (s.btc.filter (!·.notice))
            (rest.filter (!HiddEvent.notice ·)) s.dev.connected true false = _
          rw [hrequests, hradio, hlinks, hbtc, hrest, hconn]
          rfl
        · -- the last event of the permit: it is asked for again
          obtain rfl : b = 3 := by omega
          obtain rfl : stage = 3 := by omega
          obtain ⟨hafter, hcalls⟩ := @handlerRun_disconnect s.flags err hprep
          have hview : (LinkSys.react { s with posted := rest } (.hidd .disconnect) err).view =
              View.mk (s.requests + if err = espOk then 1 else 0) s.radio s.links
                (s.btc.filter (!·.notice)) (rest.filter (!HiddEvent.notice ·)) s.dev.connected
                false (err == espOk) := by
            simp only [LinkSys.view, LinkSys.react, hafter, accepted_length hcalls]
          by_cases hacc : err = espOk
          · refine .live c 0 0 0
              ⟨by decide, by decide, by decide, by decide⟩ ?_ (fun h2 => by cases h2) ?_
            · rw [hview, hrequests, hradio, hlinks, hbtc, hrest, hconn, hacc]
              rfl
            · show Prepared (handlerRun s.flags (.hidd .disconnect) err).after
              rw [hafter]
              exact hprep
          · refine .idle ?_ fun hall => absurd (hok hall) hacc
            rw [hview, hrequests, hradio, hlinks, hbtc, hrest, hconn, if_neg hacc,
              beq_eq_false_iff_ne.mpr hacc]
            rfl

/-- **One step keeps the permit.** -/
theorem phase_step {l : LinkLab} (h : Phase ok s) (hs : linkStep s l = some (s', es))
    (hok : ok → Succeeds l) : Phase ok s' := by
  cases l with
  | startDone status => exact phase_startDone h hs hok
  | up c => exact phase_up h hs
  | down c => exact phase_down h hs
  | notify e =>
      simp only [linkStep] at hs
      split at hs
      · rename_i hnotice
        obtain ⟨rfl, -⟩ := Prod.mk.inj (Option.some.inj hs)
        refine h.of_view ?_ rfl rfl
        simp [LinkSys.view, hnotice]
      · cases hs
  | btc err =>
      cases hbtc : s.btc with
      | nil => simp [linkStep, hbtc] at hs
      | cons x rest =>
          cases x with
          | gap e =>
              simp only [linkStep, hbtc, Option.some.injEq, Prod.mk.injEq] at hs
              obtain ⟨rfl, -⟩ := hs
              by_cases hnotice : (BtcEvent.gap e).notice = true
              · have hpop : Phase ok { s with btc := rest } := by
                  refine h.of_view ?_ rfl rfl
                  simp [LinkSys.view, hbtc, hnotice]
                exact hpop.mayTry hnotice hok
              · cases e with
                | advStartComplete status => exact phase_advStart h hbtc
                | advStopComplete => exact (phase_noStop h hbtc).elim
                | advDataSetComplete | secReq | authCmpl | other => exact absurd rfl hnotice
          | gatts e =>
              simp only [linkStep, hbtc] at hs
              split at hs
              · obtain ⟨rfl, -⟩ := Prod.mk.inj (Option.some.inj hs)
                exact phase_gatts h hbtc
              · cases hs
  | event err =>
      cases hposted : s.posted with
      | nil => simp [linkStep, hposted] at hs
      | cons x rest =>
          simp only [linkStep, hposted, Option.some.injEq, Prod.mk.injEq] at hs
          obtain ⟨rfl, -⟩ := hs
          exact phase_event h hposted hok

end Phases

end Steps

/-! ### Runs -/

/-- What the module and the hosts can rely on. -/
structure Served (s : LinkSys) : Prop where
  /-- the device is asked to advertise, advertises, or is connected, once -/
  one     : s.requests + s.radio.toNat + s.links.length ≤ 1
  /-- reports go to the link that is up -/
  target  : ∀ c ∈ s.links, ∀ d, inputTarget s.dev = some d → d = c
  /-- when all events have been handled, the flags agree with the links -/
  settled : s.btc = [] → s.posted = [] →
    (s.dev.connected = true ↔ s.links ≠ []) ∧ s.flags.sConnected = s.dev.connected

section Runs

variable {s : LinkSys} {ls : List LinkLab} {tr : List HiddEvent}

theorem phase_start (ok : Prop) : Phase ok ({} : LinkSys) :=
  .idle rfl fun _ hprep => by cases hprep.1

theorem phase_of_run {ok : Prop} (h : Run link {} ls s tr)
    (hok : ok → Meets link {} (fun _ l => Succeeds l) ls) : Phase ok s := by
  refine h.invariant_of_meets (P := fun s _ => Phase ok s)
    (C := fun _ l => ok → Succeeds l) (phase_start ok) ?_ ?_
  · intro s tr l s' es hP hC hs
    exact phase_step hP hs hC
  · intro pre l post s tr hls hrun hall
    exact hok hall pre l post s tr hls hrun

/-- Where a permit stands when all events have been handled. -/
theorem settled_position {c stage b p : Nat} (hpos : Position stage b p)
    (hlive : s.view = liveView c stage b p) (hbtc : s.btc = []) (hposted : s.posted = []) :
    b = stage ∧ p = b - 1 ∧ stage ≤ 2 := by
  obtain ⟨-, -, -, hbtcView, hpostedView, -, -, -⟩ := view_inv hlive
  obtain ⟨hstage, hb, hp, hlast⟩ := hpos
  rw [hbtc] at hbtcView
  rw [hposted] at hpostedView
  have hbtcLen : ((btcScript c).take stage).length ≤ b :=
    List.drop_eq_nil_iff.mp hbtcView.symm
  have hpostedLen : (postScript.take (b - 1)).length ≤ p :=
    List.drop_eq_nil_iff.mp hpostedView.symm
  rw [List.length_take] at hbtcLen hpostedLen
  have hthree : (btcScript c).length = 3 := rfl
  have htwo : postScript.length = 2 := rfl
  omega

/-- **There is one permit.**  In every run, over every interleaving of the
    controller, the hosts, the Bluetooth task and the event task, and with any
    answers of the driver: at most one of a request to advertise, the
    advertisement and a link exists at a time; a report goes to the link that is
    up; and once all events have been handled the driver's and the module's flags
    say whether a link is up. -/
theorem one_link (h : Run link {} ls s tr) : Served s := by
  have hphase := @phase_of_run s ls tr False h False.elim
  cases hphase with
  | idle hdown | failed _ hdown =>
      obtain ⟨hrequests, hradio, hlinks, -, -, hconn, hsconn, -⟩ := view_inv hdown
      refine ⟨?_, ?_, ?_⟩
      · rw [hrequests, hradio, hlinks]
        exact Nat.zero_le _
      · intro c hc
        rw [hlinks] at hc
        cases hc
      · intro _ _
        rw [hconn, hlinks, hsconn]
        exact ⟨iff_of_false (by simp [downView]) (by simp [downView]), rfl⟩
  | live c stage b p hpos hlive hid =>
      obtain ⟨hrequests, hradio, hlinks, -, -, hconn, hsconn, -⟩ := view_inv hlive
      refine ⟨?_, ?_, ?_⟩
      · rw [hrequests, hradio, hlinks]
        have hstage := hpos.stage_le
        obtain rfl | rfl | rfl | rfl : stage = 0 ∨ stage = 1 ∨ stage = 2 ∨ stage = 3 := by omega
        · exact Nat.le_refl 1
        · exact Nat.le_refl 1
        · exact Nat.le_refl 1
        · exact Nat.zero_le 1
      · intro d hd e he
        have hup : s.dev.connected = true := by
          by_contra hdown
          simp [inputTarget, hdown] at he
        have hb : b = 2 := of_decide_eq_true (hconn.symm.trans hup)
        rw [inputTarget, if_pos hup, Option.some.injEq, hid hb] at he
        have hstage : stage = 2 := by
          by_contra hne
          rw [hlinks] at hd
          simp [liveView, hne] at hd
        rw [hlinks] at hd
        simp only [liveView, hstage, if_true, List.mem_singleton] at hd
        rw [← he, hd]
      · intro hbtc hposted
        obtain ⟨rfl, rfl, hstage⟩ := settled_position hpos hlive hbtc hposted
        rw [hconn, hlinks, hsconn]
        obtain rfl | rfl | rfl : b = 0 ∨ b = 1 ∨ b = 2 := by omega
        · exact ⟨iff_of_false (by simp [liveView]) (by simp [liveView]), rfl⟩
        · exact ⟨iff_of_false (by simp [liveView]) (by simp [liveView]), rfl⟩
        · exact ⟨iff_of_true rfl (by simp [liveView]), rfl⟩

/-- **The device does not go dark.**  In every run in which each request to
    advertise is accepted and each start succeeds, once both prerequisites hold
    and all events have been handled: the device is asked to advertise,
    advertises, or is connected. -/
theorem never_dark (h : Run link {} ls s tr)
    (hok : Meets link {} (fun _ l => Succeeds l) ls) (hprep : Prepared s.flags)
    (hbtc : s.btc = []) (hposted : s.posted = []) :
    s.requests + s.radio.toNat + s.links.length = 1 := by
  have hphase := @phase_of_run s ls tr True h fun _ => hok
  cases hphase with
  | idle _ hdark => exact absurd hprep (hdark trivial)
  | failed _ _ hbad => exact absurd trivial hbad
  | live c stage b p hpos hlive =>
      obtain ⟨hrequests, hradio, hlinks, -⟩ := view_inv hlive
      obtain ⟨-, -, hstage⟩ := settled_position hpos hlive hbtc hposted
      rw [hrequests, hradio, hlinks]
      obtain rfl | rfl | rfl : stage = 0 ∨ stage = 1 ∨ stage = 2 := by omega
      · rfl
      · rfl
      · rfl

/-- A host connects, leaves, and the device advertises again. -/
def hostLeaves : List LinkLab :=
  [.notify (.gatts .start), .notify (.gap .advDataSetComplete), .btc espOk, .btc espOk,
    .event espOk, .startDone espBtStatusSuccess, .btc espOk, .up 7, .btc espOk, .event espOk,
    .down 7, .btc espOk, .event espOk, .startDone espBtStatusSuccess, .btc espOk]

/-- What that leaves: the advertisement. -/
def hostLeft : LinkSys where
  radio := true
  dev := { connected := false, connId := 7 }
  flags := { sReady := true, sHidStarted := true, sAdvDataReady := true, sAdvertising := true }

theorem run_hostLeaves : Run link {} hostLeaves hostLeft [.start, .connect, .disconnect] :=
  run_of_exec (by decide)

theorem one_link_at : Served hostLeft := one_link run_hostLeaves

theorem never_dark_at : hostLeft.requests + hostLeft.radio.toNat + hostLeft.links.length = 1 :=
  never_dark run_hostLeaves (meets_of_checks (by decide)) ⟨rfl, rfl⟩ rfl rfl

end Runs

end HiddLink
