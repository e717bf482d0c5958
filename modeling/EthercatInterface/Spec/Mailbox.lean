import EthercatInterface.Spec.Action

/-!
# Mailbox errors

`mailbox.hpp`, and the private functions of the backend that empty SOEM's error
list: what an entry means, whether it belongs to the access in flight, and how it is
counted. The log lines are left out.
-/

namespace EthercatInterface

open Interleave

/-! ## `ec_err_type` -/

def EC_ERR_TYPE_SDO_ERROR : ℤ := 0
def EC_ERR_TYPE_EMERGENCY : ℤ := 1
def EC_ERR_TYPE_PACKET_ERROR : ℤ := 3
def EC_ERR_TYPE_SDOINFO_ERROR : ℤ := 4
def EC_ERR_TYPE_FOE_ERROR : ℤ := 5
def EC_ERR_TYPE_FOE_BUF2SMALL : ℤ := 6
def EC_ERR_TYPE_FOE_PACKETNUMBER : ℤ := 7
def EC_ERR_TYPE_SOE_ERROR : ℤ := 8
def EC_ERR_TYPE_MBX_ERROR : ℤ := 9
def EC_ERR_TYPE_FOE_FILE_NOTFOUND : ℤ := 10
def EC_ERR_TYPE_EOE_INVALID_RX_DATA : ℤ := 11

/-- `static_cast<uint32_t>`. -/
def toUInt32 (x : ℤ) : ℕ := (x % 2 ^ 32).toNat

/-- `MailboxAccess`. -/
structure MailboxAccess where
  deviceId : DeviceId := 0
  protocol : MailboxProtocol := .unknown
  index : Option ℕ := none
  subIndex : Option ℕ := none

/-- The payload of an emergency, read off an error entry. -/
def emergencyInfo (e : EcErrort) : EmergencyInfo where
  code := e.ErrorCode
  errorRegister := e.ErrorReg
  data := [e.b1, e.w1 % 256, e.w1 / 256, e.w2 % 256, e.w2 / 256]

/-- `make_mailbox_event`, at clock reading `now`. -/
def makeMailboxEvent (now : ℤ) (e : EcErrort) : MailboxEvent :=
  let ev : MailboxEvent := { timestamp := now, deviceId := e.Slave, severity := .error }
  if e.Etype = EC_ERR_TYPE_SDO_ERROR ∨ e.Etype = EC_ERR_TYPE_SDOINFO_ERROR then
    { ev with protocol := .coe, kind := .abort, code := toUInt32 e.AbortCode, index := some e.Index
              subIndex := some e.SubIdx, description := .ecSdoerror2string (toUInt32 e.AbortCode) }
  else if e.Etype = EC_ERR_TYPE_EMERGENCY then
    { ev with protocol := .coe, kind := .emergency, code := e.ErrorCode
              severity := if (emergencyInfo e).isReset then .info else .error
              description :=
                .text (if (emergencyInfo e).isReset then "Emergency cleared" else "Device emergency")
              emergency := some (emergencyInfo e) }
  else if e.Etype = EC_ERR_TYPE_SOE_ERROR then
    { ev with protocol := .soe, kind := .abort, code := e.ErrorCode, index := some e.Index
              subIndex := some e.SubIdx, description := .ecSoeerror2string e.ErrorCode }
  else if e.Etype = EC_ERR_TYPE_MBX_ERROR then
    { ev with kind := .mailboxLayerError, code := e.ErrorCode
              description := .ecMbxerror2string e.ErrorCode }
  else if e.Etype = EC_ERR_TYPE_PACKET_ERROR then
    { ev with kind := .protocolViolation, code := e.ErrorCode
              description := .text "Malformed mailbox packet" }
  else if e.Etype = EC_ERR_TYPE_FOE_ERROR ∨ e.Etype = EC_ERR_TYPE_FOE_BUF2SMALL ∨
      e.Etype = EC_ERR_TYPE_FOE_PACKETNUMBER ∨ e.Etype = EC_ERR_TYPE_FOE_FILE_NOTFOUND then
    { ev with protocol := .foe, kind := .unknown
              description := .text ("Unexpected FoE error on the error list (type " ++
                toString e.Etype ++ ")") }
  else if e.Etype = EC_ERR_TYPE_EOE_INVALID_RX_DATA then
    { ev with protocol := .eoe, kind := .unknown
              description := .text ("Unexpected EoE error on the error list (type " ++
                toString e.Etype ++ ")") }
  else
    { ev with kind := .unknown
              description := .text ("Unknown SOEM error type (" ++ toString e.Etype ++ ")") }

/-- `make_timeout_event`. -/
def makeTimeoutEvent (now : ℤ) (acc : MailboxAccess) : MailboxEvent where
  timestamp := now
  deviceId := acc.deviceId
  protocol := acc.protocol
  kind := .timeout
  index := acc.index
  subIndex := acc.subIndex
  severity := .error
  description := .text "No mailbox response (working counter <= 0)"

/-- `make_foe_event`. -/
def makeFoeEvent (now : ℤ) (deviceId : DeviceId) (wkc : ℤ) : MailboxEvent :=
  let ev : MailboxEvent :=
    { timestamp := now, deviceId := deviceId, protocol := .foe, severity := .error }
  -- before negating: the code of an SDO error is 0
  if wkc = 0 then
    { ev with kind := .timeout, description := .text "No FoE response (working counter 0)" }
  else
    let ev := { ev with code := toUInt32 (-wkc) }
    if -wkc = EC_ERR_TYPE_FOE_FILE_NOTFOUND then
      { ev with kind := .notFound, description := .text "FoE file not found" }
    else if -wkc = EC_ERR_TYPE_FOE_BUF2SMALL then
      { ev with kind := .bufferTooSmall, description := .text "FoE receive buffer too small" }
    else if -wkc = EC_ERR_TYPE_FOE_PACKETNUMBER then
      { ev with kind := .protocolViolation, description := .text "FoE packet number mismatch" }
    else if -wkc = EC_ERR_TYPE_PACKET_ERROR then
      { ev with kind := .protocolViolation
                description := .text "Unexpected frame during FoE transfer" }
    else if -wkc = EC_ERR_TYPE_FOE_ERROR then
      { ev with kind := .abort, description := .text "FoE error reported by device" }
    else if -wkc = EC_ERR_TYPE_EOE_INVALID_RX_DATA then
      { ev with protocol := .eoe, kind := .unknown, description := .text "EoE reported by device" }
    else
      { ev with kind := .unknown, description := .text ("FoE failed with code " ++ toString wkc) }

/-- Two optional fields do not contradict each other. -/
def agrees (x y : Option ℕ) : Bool := x.isNone || y.isNone || x == y

/-- `belongs_to_access`: solicited, from the right device, and no field the event
carries contradicts the access. -/
def belongsToAccess (acc : MailboxAccess) (ev : MailboxEvent) : Bool :=
  ev.kind ≠ .emergency && ev.deviceId = acc.deviceId &&
    (ev.protocol = .unknown || ev.protocol = acc.protocol) &&
    agrees ev.index acc.index && agrees ev.subIndex acc.subIndex

/-- `severity == MailboxEventSeverity::Error`, of an event if there is one. -/
def isError (event : Option MailboxEvent) : Bool := event.any fun ev => ev.severity = .error

/-! ## Emptying the error list -/

/-- `report_mailbox_event`. -/
def reportMailboxEvent (ev : MailboxEvent) : P Unit :=
  Prog.withLock [.mailboxStatus] (act (.countMailboxEvent ev.kind))

/-- Report an event if there is one. -/
def reportAny : Option MailboxEvent → P Unit
  | some ev => reportMailboxEvent ev
  | none => pure ()

/-- The loop of `drain_mailbox_events(acc)`; the fuel exceeds the number of entries left. -/
def drainFor (acc : MailboxAccess) : ℕ → Option MailboxEvent → P (Option MailboxEvent)
  | 0, attributed => pure attributed
  | n + 1, attributed => do
    match ← act .ecxPoperror with
    | none => pure attributed
    | some raw => do
      let now ← act .now
      let ev := makeMailboxEvent now raw
      if attributed.isNone && belongsToAccess acc ev then drainFor acc n (some ev)
      else do
        reportMailboxEvent ev
        drainFor acc n attributed

/-- `drain_mailbox_events(acc)`. -/
def drainMailboxEventsFor (acc : MailboxAccess) : P (Option MailboxEvent) := do
  let n ← act .elistLength
  drainFor acc (n + 1) none

/-- The loop of `drain_mailbox_events()`. -/
def drainAll : ℕ → P Unit
  | 0 => pure ()
  | n + 1 => do
    match ← act .ecxPoperror with
    | none => pure ()
    | some raw => do
      let now ← act .now
      reportMailboxEvent (makeMailboxEvent now raw)
      drainAll n

/-- `drain_mailbox_events()`. -/
def drainMailboxEvents : P Unit := do
  let n ← act .elistLength
  drainAll (n + 1)

/-- `finish_mailbox_access`: the event of the access and whether it failed. -/
def finishMailboxAccess (acc : MailboxAccess) (wkc : ℤ) : P (Option MailboxEvent × Bool) := do
  let event ← drainMailboxEventsFor acc
  if wkc ≤ 0 ∧ event = none then do
    let now ← act .now
    let ev := makeTimeoutEvent now acc
    reportMailboxEvent ev
    pure (some ev, wkc ≤ 0 || isError (some ev))
  else
    pure (event, wkc ≤ 0 || isError event)

/-- `finish_foe_access`. -/
def finishFoeAccess (acc : MailboxAccess) (wkc : ℤ) : P (Option MailboxEvent × Bool) := do
  let event ← drainMailboxEventsFor acc
  if wkc > 0 then
    pure (event, isError event)
  else do
    reportAny event
    let now ← act .now
    -- a decoded FoE code is more specific than anything the drain could have found
    let ev := makeFoeEvent now acc.deviceId wkc
    reportMailboxEvent ev
    pure (some ev, true)

end EthercatInterface
