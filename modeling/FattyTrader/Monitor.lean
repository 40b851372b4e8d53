import FattyTrader.Programs
import FattyTrader.KillSwitches

/-!
# The monitor

`BitgetMonitor.runOnce` as a program. It collects the reasons of one cycle from the
provider and the store (`observe`), and then latches each latchable reason, or, when there
is none, looks at a switch that is active and releases it if its stored reason is one of
the two clock reasons (`conclude`).

`monitorSystem` runs any number of cycles, latches and releases at once over one table of
kill switches. Each read, each write and each answer of the provider is one operation, and
the schedule chooses the answer, so steps of other calls land between any two statements of
a cycle. A write may be applied and still be reported as failed.
-/

namespace FattyTrader

open Programs Prog

/-! ## Reasons -/

/-- The reasons a clean cycle releases. -/
def autoReleasableKillSwitchReasons : List String :=
  ["clock-skew-unavailable", "clock-skew-exceeded"]

def autoReleaseReference : String := "auto:clock-check-recovered"

def alertOnlyProtectionReasons : List String := ["missing-stop-loss", "missing-take-profit"]

def latchable (reason : String) : Bool :=
  !alertOnlyProtectionReasons.contains reason &&
    !("fallback-sl_hit:".toList.isPrefixOf reason.toList ||
      "fallback-tp_hit:".toList.isPrefixOf reason.toList)

/-! ## What the provider and the store answer -/

/-- A row of the positions, with what could be read as a decimal and as a name. -/
structure PositionRow where
  total : Option ℚ
  symbol : Option String
deriving DecidableEq, Repr

def PositionRow.openQuantity (p : PositionRow) : Option ℚ :=
  p.total.filter fun q => 0 ≤ q

/-- A provider fill, as far as the monitor reads it : its text fields as compared. -/
structure ExitFill where
  tradeId : String
  hasClientOid : Bool
  source : String
  tradeSide : String
  reduceOnly : String
deriving DecidableEq, Repr

def ExitFill.looksLikeExternalExit (fill : ExitFill) : Bool :=
  !fill.hasClientOid &&
    (fill.source == "SYS" || "burst_".toList.isPrefixOf fill.tradeSide.toList ||
      fill.reduceOnly == "YES" || fill.reduceOnly == "TRUE")

structure ProtectionReport where
  venueProtected : Bool
  reason : Option String
deriving DecidableEq, Repr

/-- The reason a position without confirmed venue protection gives. -/
def ProtectionReport.unconfirmed (report : ProtectionReport) : Option String :=
  if report.venueProtected then none
  else match report.reason with
    | some reason => some (if reason = "" then "native-protection-unconfirmed" else reason)
    | none => some "native-protection-unconfirmed"

structure PostFillMismatch where
  exchange : String
  createdAt : Instant
deriving DecidableEq, Repr

inductive MonitorError
  | storage (e : StorageError)
  | providerFillReconciliation
  | provider (text : String)
deriving DecidableEq, Repr

def MonitorError.text : MonitorError → String
  | .storage (.valueError text) => text
  | .storage (.lookupError text) => text
  | .storage .connection => "connection"
  | .providerFillReconciliation => "provider-fill-reconciliation"
  | .provider text => text

/-! ## Operations -/

inductive MonitorOp
  | unresolvedIntents (scope : String)
  | reconcileUnknownIntent (clientOid : String)
  | getFills
  | bindNativePlanClose (fill : ExitFill)
  | reconcileProviderExit (fill : ExitFill)
  | getAllPositions
  | getPendingOrders
  | expectedPositionSymbols (scope : String)
  | confirmNativeStopProtection (symbol : String) (quantity : ℚ)
  | hasUnhandledPostFillMismatch (scope : String)
  | runFallbackMonitor
  | verifiedCloseReconcile
  | getClockSkewMs
  | latchKillSwitch (scope reason : String)
  | killSwitchActive (scope : String)
  | killSwitchReason (scope : String)
  | releaseKillSwitch (scope approvalReference : String)
deriving DecidableEq

/-- The provider's lists are `none` where their shape is not understood. -/
abbrev MonitorAns : MonitorOp → Type
  | .unresolvedIntents _ => List String
  | .reconcileUnknownIntent _ => Unit
  | .getFills => Option (List ExitFill)
  | .bindNativePlanClose _ => Bool
  | .reconcileProviderExit _ => Bool
  | .getAllPositions => Option (List PositionRow)
  | .getPendingOrders => Option (List (Option String))
  | .expectedPositionSymbols _ => List String
  | .confirmNativeStopProtection _ _ => ProtectionReport
  | .hasUnhandledPostFillMismatch _ => Bool
  | .runFallbackMonitor => List (String × String)
  | .verifiedCloseReconcile => Unit
  | .getClockSkewMs => ℤ
  | .latchKillSwitch _ _ => Unit
  | .killSwitchActive _ => Bool
  | .killSwitchReason _ => Option String
  | .releaseKillSwitch _ _ => Unit

abbrev MonitorProg (α : Type) := Prog MonitorOp MonitorAns MonitorError α
abbrev MonitorEvent := Event MonitorOp MonitorAns MonitorError

/-- Perform one operation of the monitor. -/
abbrev call (o : MonitorOp) : MonitorProg (MonitorAns o) := perform o

structure MonitorReport where
  status : String
  reasons : List String
  providerExitsReconciled : ℕ
  latchedReason : Option String
deriving DecidableEq, Repr

/-- A monitor. Its clock bound is not negative. -/
structure BitgetMonitor where
  scope : String
  maxClockSkewMs : ℕ
  enforceKillSwitch : Bool
  fallbackMutationsEnabled : Bool
  hasIntentStore : Bool
  hasVerifiedCloseLifecycle : Bool
deriving DecidableEq, Repr

/-- The reasons of a cycle in the order found, and the exits it reconciled. -/
structure Observation where
  reasons : List String
  providerExitsReconciled : ℕ

/-! ## One cycle -/

namespace BitgetMonitor

def reconcileUnresolvedIntents (m : BitgetMonitor) : MonitorProg (List String) := do
  let intents ← call (.unresolvedIntents m.scope)
  let outcomes ← each intents fun oid => do
    match ← attempt (call (.reconcileUnknownIntent oid)) with
    | .ok _ => pure none
    | .error _ => pure (some ("unknown-intent-unreconciled:" ++ oid))
  pure outcomes.reduceOption

/-- The reason a provider exit fill gives, and whether it counts as reconciled. -/
def reconcileProviderExit (fill : ExitFill) : MonitorProg (Option String × Bool) := do
  match ← attempt (call (.bindNativePlanClose fill)) with
  | .ok true => pure (none, true)
  | _ =>
    if fill.looksLikeExternalExit then
      match ← attempt (call (.reconcileProviderExit fill)) with
      | .ok created => pure (none, created)
      | .error .providerFillReconciliation =>
        pure (some "provider-fill-reconciliation-error", false)
      | .error e => raise e
    else pure (none, false)

def reconcileProviderExits (m : BitgetMonitor) : MonitorProg (List String × ℕ) := do
  if !m.hasIntentStore then pure ([], 0)
  else match ← attempt (call .getFills) with
    | .error _ => pure (["provider-fills-read-failed"], 0)
    | .ok none => pure (["provider-fills-invalid"], 0)
    | .ok (some fills) => do
      let outcomes ← each fills reconcileProviderExit
      pure ((outcomes.map Prod.fst).reduceOption, outcomes.countP Prod.snd)

/-- Rows of the provider, with a reason instead where they could not be read. -/
def readRows {α : Type} (reader : MonitorProg (Option (List α)))
    (readReason invalidReason : String) : MonitorProg (List α × List String) := do
  match ← attempt reader with
  | .error _ => pure ([], [readReason])
  | .ok none => pure ([], [invalidReason])
  | .ok (some rows) => pure (rows, [])

def checkPosition (expectedSymbols : List String) (position : PositionRow) :
    MonitorProg (Option String) :=
  match position.openQuantity with
  | none => pure (some "provider-position-invalid")
  | some quantity =>
    if quantity = 0 then pure none
    else match position.symbol with
      | none => pure (some "provider-position-invalid")
      | some symbol =>
        if expectedSymbols.contains symbol then do
          let report ← call (.confirmNativeStopProtection symbol quantity)
          pure report.unconfirmed
        else pure (some ("unexpected-position:" ++ symbol))

def checkPositions (m : BitgetMonitor) (positions : List PositionRow) :
    MonitorProg (List String) := do
  let expectedSymbols ← call (.expectedPositionSymbols m.scope)
  let outcomes ← each positions (checkPosition expectedSymbols)
  pure outcomes.reduceOption

def unexpectedOrder (known : List String) : Option String → Option String
  | none => some "unexpected-order:unknown"
  | some oid => if known.contains oid then none else some ("unexpected-order:" ++ oid)

def checkOrders (m : BitgetMonitor) (orders : List (Option String)) :
    MonitorProg (List String) := do
  let known ← call (.unresolvedIntents m.scope)
  pure (orders.filterMap (unexpectedOrder known))

def checkPostFillMismatch (m : BitgetMonitor) : MonitorProg (List String) := do
  if ← call (.hasUnhandledPostFillMismatch m.scope) then
    pure ["post-fill-margin-or-leverage-mismatch"]
  else pure []

def runFallbackMonitor (m : BitgetMonitor) : MonitorProg (List String) := do
  if !m.fallbackMutationsEnabled then pure []
  else match ← attempt (call .runFallbackMonitor) with
    | .ok triggered => pure (triggered.map fun t => "fallback-" ++ t.1 ++ ":" ++ t.2)
    | .error e => pure ["fallback-monitor-error:" ++ e.text]

def reconcileVerifiedCloses (m : BitgetMonitor) : MonitorProg (List String) := do
  if !m.hasVerifiedCloseLifecycle then pure []
  else match ← attempt (call .verifiedCloseReconcile) with
    | .ok _ => pure []
    | .error _ => pure ["verified-close-evidence-unavailable"]

def checkClock (m : BitgetMonitor) : MonitorProg (List String) := do
  match ← attempt (call .getClockSkewMs) with
  | .error _ => pure ["clock-skew-unavailable"]
  | .ok skew => pure (if m.maxClockSkewMs < skew.natAbs then ["clock-skew-exceeded"] else [])

/-- The reading half of a cycle. It writes no kill switch. -/
def observe (m : BitgetMonitor) : MonitorProg Observation := do
  let unresolved ← m.reconcileUnresolvedIntents
  let (exits, providerExitsReconciled) ← m.reconcileProviderExits
  let (positions, positionReads) ← readRows (call .getAllPositions)
    "provider-positions-read-failed" "provider-positions-invalid"
  let (orders, orderReads) ← readRows (call .getPendingOrders)
    "provider-orders-read-failed" "provider-orders-invalid"
  let positionReasons ← m.checkPositions positions
  let orderReasons ← m.checkOrders orders
  let mismatch ← m.checkPostFillMismatch
  let fallback ← m.runFallbackMonitor
  let closes ← m.reconcileVerifiedCloses
  let clock ← m.checkClock
  pure
    { reasons := unresolved ++ exits ++ positionReads ++ orderReads ++ positionReasons ++
        orderReasons ++ mismatch ++ fallback ++ closes ++ clock
      providerExitsReconciled := providerExitsReconciled }

/-- A cycle with reasons latches the latchable ones, in the order found. -/
def latchReasons (m : BitgetMonitor) (uniqueReasons : List String) (exits : ℕ) :
    MonitorProg MonitorReport := do
  let latchableReasons := uniqueReasons.filter latchable
  if latchableReasons.isEmpty || !m.enforceKillSwitch then
    pure ⟨"degraded", uniqueReasons, exits, none⟩
  else do
    let _ ← each latchableReasons fun reason => call (.latchKillSwitch m.scope reason)
    pure ⟨"kill-switch-latched", latchableReasons, exits, none⟩

/-- A cycle without reasons releases a switch that a clock reason holds. -/
def releaseTransient (m : BitgetMonitor) (exits : ℕ) : MonitorProg MonitorReport := do
  if !m.enforceKillSwitch then pure ⟨"ok", [], exits, none⟩
  else if ← call (.killSwitchActive m.scope) then
    let latchedReason ← call (.killSwitchReason m.scope)
    if latchedReason.any autoReleasableKillSwitchReasons.contains then
      call (.releaseKillSwitch m.scope autoReleaseReference)
      pure ⟨"ok", [], exits, none⟩
    else pure ⟨"kill-switch-latched", [], exits, latchedReason⟩
  else pure ⟨"ok", [], exits, none⟩

def conclude (m : BitgetMonitor) (seen : Observation) : MonitorProg MonitorReport :=
  let uniqueReasons := seen.reasons.eraseDups
  if uniqueReasons.isEmpty then m.releaseTransient seen.providerExitsReconciled
  else m.latchReasons uniqueReasons seen.providerExitsReconciled

def runOnce (m : BitgetMonitor) : MonitorProg MonitorReport := m.observe >>= m.conclude

end BitgetMonitor

/-! ## Cycles, latches and releases over one table -/

/-- A cycle of a monitor, a latch by any actor, or a release by an operator. -/
inductive MonitorCall
  | runOnce (m : BitgetMonitor)
  | latchKillSwitch (scope reason : String)
  | releaseKillSwitch (scope approvalReference : String)
deriving DecidableEq

def MonitorCall.body : MonitorCall → MonitorProg Unit
  | .runOnce m => m.runOnce >>= fun _ => pure ()
  | .latchKillSwitch scope reason => call (.latchKillSwitch scope reason)
  | .releaseKillSwitch scope ref => call (.releaseKillSwitch scope ref)

structure MonitorWorld where
  switches : Switches
  mismatches : List PostFillMismatch

/-- A mismatch is unhandled until the switch of its scope is written again. -/
def MonitorWorld.hasUnhandledPostFillMismatch (w : MonitorWorld) (scope : String) : Bool :=
  w.mismatches.any fun mismatch => mismatch.exchange == scope &&
    (match w.switches.rows scope with
      | some row => decide (row.updatedAt < mismatch.createdAt)
      | none => decide (0 < mismatch.createdAt))

/-- What the schedule chooses for one operation. -/
structure MonitorChoice where
  delivery : Delivery
  now : Instant
  unresolvedIntents : List String
  reconcileUnknownIntent : Except MonitorError Unit
  fills : Except MonitorError (Option (List ExitFill))
  bindNativePlanClose : Except MonitorError Bool
  reconcileProviderExit : Except MonitorError Bool
  positions : Except MonitorError (Option (List PositionRow))
  pendingOrders : Except MonitorError (Option (List (Option String)))
  expectedPositionSymbols : List String
  protection : Except MonitorError ProtectionReport
  fallback : Except MonitorError (List (String × String))
  verifiedClose : Except MonitorError Unit
  clockSkewMs : Except MonitorError ℤ

namespace MonitorChoice

variable (c : MonitorChoice)

/-- A stored value, or the failure to read it. -/
def read {α : Type} (a : α) : Except MonitorError α :=
  if c.delivery = .answered then .ok a else .error (.storage .connection)

/-- A write of the kill switches : refused, applied, applied but lost, or failed. -/
def write (w : MonitorWorld) : Except StorageError Switches → Except MonitorError Unit × MonitorWorld
  | .error e => (.error (.storage e), w)
  | .ok switches =>
    match c.delivery with
    | .answered => (.ok (), { w with switches := switches })
    | .lost => (.error (.storage .connection), { w with switches := switches })
    | .failed => (.error (.storage .connection), w)

end MonitorChoice

def monitorExec (o : MonitorOp) (w : MonitorWorld) (c : MonitorChoice) :
    Except MonitorError (MonitorAns o) × MonitorWorld :=
  match o with
  | .unresolvedIntents _ => (c.read c.unresolvedIntents, w)
  | .reconcileUnknownIntent _ => (c.reconcileUnknownIntent, w)
  | .getFills => (c.fills, w)
  | .bindNativePlanClose _ => (c.bindNativePlanClose, w)
  | .reconcileProviderExit _ => (c.reconcileProviderExit, w)
  | .getAllPositions => (c.positions, w)
  | .getPendingOrders => (c.pendingOrders, w)
  | .expectedPositionSymbols _ => (c.read c.expectedPositionSymbols, w)
  | .confirmNativeStopProtection _ _ => (c.protection, w)
  | .hasUnhandledPostFillMismatch scope => (c.read (w.hasUnhandledPostFillMismatch scope), w)
  | .runFallbackMonitor => (c.fallback, w)
  | .verifiedCloseReconcile => (c.verifiedClose, w)
  | .getClockSkewMs => (c.clockSkewMs, w)
  | .latchKillSwitch scope reason =>
    c.write w (.ok (w.switches.latchKillSwitch scope reason c.now))
  | .killSwitchActive scope => (c.read (w.switches.killSwitchActive scope), w)
  | .killSwitchReason scope => (c.read (w.switches.killSwitchReason scope), w)
  | .releaseKillSwitch scope ref => c.write w (w.switches.releaseKillSwitch scope ref c.now)

/-- The environment records post-fill mismatches. -/
def monitorSystem : System MonitorOp MonitorAns MonitorError MonitorCall MonitorWorld
    MonitorChoice PostFillMismatch where
  body := MonitorCall.body
  exec o w c := some (monitorExec o w c)
  env w mismatch := some { w with mismatches := mismatch :: w.mismatches }

abbrev MonitorState := State MonitorOp MonitorAns MonitorError MonitorCall MonitorWorld
abbrev MonitorLabel := Label MonitorCall MonitorChoice PostFillMismatch

end FattyTrader
