import FattyTrader.EntryRecovery
import FattyTrader.ReservationLaws
import FattyTrader.TableParts
import Mathlib.Algebra.Order.BigOperators.Group.List
import Mathlib.Data.List.Duplicate
import Mathlib.Data.List.Nodup

/-!
# The closes that settle a lifecycle

`_closed_lifecycle_reason` settles the lifecycle of an entry root when the venue reads flat and
the `filled_qty` of the closes it collects sums to at least what the root filled. It collects
the direct closes of the root, its protection legs, and every completed close of the symbol
(`Db.collectedCloses`). A direct close that completed is also a completed close of the symbol,
and the closes of the symbol have no root.

The fills of the venue prove less. `Db.closeQuantity` counts the fills of the closes of the root,
each of them once. A settlement is covered by them where the rows that are collected are the root's
own (`Db.OwnedCloses`) : each is a close of it whose fills prove what it records, no two share a
fill, and one that is collected twice has closed the root alone (`lifecycles_covered`).
-/

set_option linter.unusedSectionVars false

open Tables

namespace FattyTrader

open Programs Prog Runs

/-! ## A call alone -/

/-- A call of the entry path alone on the database, with what it did. -/
def alone (choices : ℕ → EntryChoice) (o : EntryOp) (w : Db × List EntryEvent) :
    Except ExecutionError (EntryAns o) × (Db × List EntryEvent) :=
  let r := entryExec o w.1 (choices w.2.length)
  (r.1, r.2, w.2 ++ [⟨o, r.1⟩])

/-- The program only reads, and what it reads of the database is `a`. -/
def ReadsAs {α : Type} (p : EntryProg α) (db : Db) (a : α) : Prop :=
  ∀ choices es, (∃ es', p.run (alone choices) (db, es) = (.ok a, db, es')) ∨
    (∃ n, (choices n).delivery ≠ .answered) ∧
      ∃ e es', p.run (alone choices) (db, es) = (.error e, db, es')

section Reads

variable {α β : Type} {db : Db}

theorem ReadsAs.pure (a : α) : ReadsAs (pure a) db a := fun _ es => Or.inl ⟨es, rfl⟩

theorem ReadsAs.bind {p : EntryProg α} {f : α → EntryProg β} {a : α} {b : β} (hp : ReadsAs p db a)
    (hf : ReadsAs (f a) db b) : ReadsAs (p >>= f) db b := by
  intro choices es
  rcases hp choices es with ⟨es₁, h⟩ | ⟨hlost, e, es₁, h⟩
  · rw [run_bind_ok h]
    exact hf choices es₁
  · exact Or.inr ⟨hlost, e, es₁, run_bind_error h⟩

/-- A reading of the store. -/
theorem readsAs_ask {o : EntryOp} {a : EntryAns o}
    (h : ∀ c, entryExec o db c = (c.read a, db)) : ReadsAs (ask o) db a := by
  intro choices es
  rw [run_perform, alone]
  simp only [h, EntryChoice.read]
  by_cases hanswered : (choices es.length).delivery = .answered
  · exact Or.inl ⟨_, by rw [if_pos hanswered]⟩
  · exact Or.inr ⟨⟨_, hanswered⟩, _, _, by rw [if_neg hanswered]⟩

theorem readsAs_each {γ : Type} {f : γ → EntryProg α} {g : γ → α}
    (h : ∀ c, ReadsAs (f c) db (g c)) (cs : List γ) : ReadsAs (each cs f) db (cs.map g) := by
  induction cs with
  | nil => exact .pure []
  | cons c cs ih => exact (h c).bind (ih.bind (.pure _))

theorem readsAs_getAll (ids : List String) :
    ReadsAs (BitgetDispatchExecution.getAll ids) db (ids.filterMap db.get) := by
  have hids : ids.filterMap db.get = (ids.map db.get).reduceOption := by
    change _ = (ids.map db.get).filterMap id
    rw [List.filterMap_map]
    rfl
  rw [hids]
  have hget : ∀ oid, ReadsAs (ask (.get oid)) db (db.get oid) := fun _ => readsAs_ask fun _ => rfl
  exact (readsAs_each hget ids).bind (.pure _)

end Reads

/-! ## The quantity of the closes -/

namespace Db

variable (db : Db) (root : LiveIntentRecord)

/-- The records `_closed_lifecycle_reason` adds up. -/
def collectedCloses : List LiveIntentRecord :=
  (BitgetDispatchExecution.directCloseIds root.clientOid).filterMap db.get ++
    (db.protectionIntentIds root.clientOid).filterMap db.get ++ db.symbolCloseIntents root.symbol

/-- A close of the root : under an id of the root, a leg of it, or bound to its reservation. -/
def isCloseOf (r : LiveIntentRecord) : Bool :=
  (BitgetDispatchExecution.directCloseIds root.clientOid).contains r.clientOid ||
    (r.role = .stopLoss || r.role = .takeProfit) && r.protectionRootOid = some root.clientOid ||
    db.closeBindings.rows.any fun b => b.closeClientOrderId = r.clientOid &&
      some b.reservationId = root.marginReservationId

/-- The fills of the venue of a record : the ones it lists, and the ones under its id. -/
def recordFills (r : LiveIntentRecord) : List FillRow :=
  db.fills.rows.filter fun f => !statusDerived f.providerFillId &&
    (r.providerFillIds.contains f.providerFillId || f.clientOrderId = r.clientOid)

/-- The fills of the venue that are of a close of the root. -/
def closeFills : List FillRow :=
  db.fills.rows.filter fun f => !statusDerived f.providerFillId &&
    db.intents.rows.any fun row => db.isCloseOf root row.record &&
      (row.record.providerFillIds.contains f.providerFillId || f.clientOrderId = row.clientOid)

/-- What the closes of the root moved, each fill counted once. -/
def closeQuantity : ℚ := ((db.closeFills root).map FillRow.quantity).sum

/-- The collected records that moved something. -/
def settlingCloses : List LiveIntentRecord := (db.collectedCloses root).filter (·.filledQty ≠ 0)

/-- The rows that are added up for a root are its own. -/
structure OwnedCloses : Prop where
  own : ∀ r ∈ db.settlingCloses root, db.isCloseOf root r = true
  proven : ∀ r ∈ db.settlingCloses root,
    r.filledQty ≤ ((db.recordFills r).map FillRow.quantity).sum
  apart : ∀ r ∈ db.settlingCloses root, ∀ r' ∈ db.settlingCloses root, r ≠ r' →
    ∀ f ∈ db.recordFills r, f ∉ db.recordFills r'
  once : ∀ r ∈ db.settlingCloses root, 1 < (db.settlingCloses root).count r →
    root.filledQty ≤ r.filledQty

end Db

/-! ## Settlement -/

theorem readsAs_collectCloses (db : Db) (root : LiveIntentRecord) :
    ReadsAs (BitgetDispatchExecution.collectCloses root) db (db.collectedCloses root) :=
  (readsAs_getAll _).bind ((readsAs_ask fun _ => rfl).bind ((readsAs_getAll _).bind
    ((readsAs_ask fun _ => rfl).bind (.pure _))))

/-- The row of the root takes the write of a settlement. -/
def Db.Writable (db : Db) (root : LiveIntentRecord) : Prop :=
  ∃ now db', db.update now root.settled = .ok db'

/-- A call of `_closed_lifecycle_reason` that did `es` settles the root : it returns the reason,
or it has changed the database. -/
def Db.Settled (db : Db) (root : LiveIntentRecord) (choices : ℕ → EntryChoice)
    (es : List EntryEvent) : Prop :=
  ∃ r db', (BitgetDispatchExecution.closedLifecycle root).run (alone choices) (db, []) =
    (r, db', es) ∧ (r = .ok true ∨ db' ≠ db)

section Settlement

variable {db : Db} {root : LiveIntentRecord} {choices : ℕ → EntryChoice} {es : List EntryEvent}

/-- What a call does that has collected enough. -/
theorem run_closedLifecycle {es₁ : List EntryEvent}
    (hcollect : (BitgetDispatchExecution.collectCloses root).run (alone choices) (db, []) =
      (.ok (db.collectedCloses root), db, es₁))
    (hmoved : root.filledQty ≤ moved (db.collectedCloses root))
    (hflat : (choices es₁.length).verdict = .ok true) :
    (BitgetDispatchExecution.closedLifecycle root).run (alone choices) (db, []) =
      (ask (.update root.settled) >>= fun _ => pure true : EntryProg Bool).run (alone choices)
        (db, es₁ ++ [⟨.positionIsFlat root.symbol, .ok true⟩]) := by
  have hread : (ask (.positionIsFlat root.symbol)).run (alone choices) (db, es₁) =
      (.ok true, db, es₁ ++ [⟨.positionIsFlat root.symbol, .ok true⟩]) := by
    rw [run_perform, alone]
    simp only [entryExec, hflat]
  unfold BitgetDispatchExecution.closedLifecycle
  rw [run_bind_ok hcollect, if_neg (not_lt.mpr hmoved), run_bind_ok (run_attempt hread)]

/-- A settlement : the position is flat, the collected sum reaches the entry fill, and the row
takes the write. -/
theorem settled_cases (h : db.Settled root choices es) :
    (⟨.positionIsFlat root.symbol, .ok true⟩ : EntryEvent) ∈ es ∧
      root.filledQty ≤ moved (db.collectedCloses root) ∧ db.Writable root := by
  obtain ⟨r, db', hrun, hmark⟩ := h
  have hkept : ∀ {r' es'}, (BitgetDispatchExecution.closedLifecycle root).run (alone choices)
      (db, []) = (r', db, es') → r' = .ok true := by
    intro r' es' hrun'
    obtain ⟨rfl, hdb⟩ := Prod.mk.inj (hrun.symm.trans hrun')
    exact hmark.resolve_right fun hne => hne (Prod.mk.inj hdb).1
  rcases readsAs_collectCloses db root choices [] with ⟨es₁, hcollect⟩ | ⟨-, e, es₁, hcollect⟩
  swap
  · cases hkept (run_bind_error hcollect)
  by_cases hmoved : root.filledQty ≤ moved (db.collectedCloses root)
  swap
  · have hopen : (BitgetDispatchExecution.closedLifecycle root).run (alone choices) (db, []) =
        (.ok false, db, es₁) := by
      unfold BitgetDispatchExecution.closedLifecycle
      rw [run_bind_ok hcollect, if_pos (not_le.mp hmoved)]
      rfl
    cases hkept hopen
  by_cases hflat : (choices es₁.length).verdict = .ok true
  swap
  · have hread : (ask (.positionIsFlat root.symbol)).run (alone choices) (db, es₁) =
        ((choices es₁.length).verdict, db,
          es₁ ++ [⟨.positionIsFlat root.symbol, (choices es₁.length).verdict⟩]) := by
      rw [run_perform, alone]
      rfl
    have hopen : (BitgetDispatchExecution.closedLifecycle root).run (alone choices) (db, []) =
        (.ok false, db,
          es₁ ++ [⟨.positionIsFlat root.symbol, (choices es₁.length).verdict⟩]) := by
      unfold BitgetDispatchExecution.closedLifecycle
      rw [run_bind_ok hcollect, if_neg (not_lt.mpr hmoved), run_bind_ok (run_attempt hread)]
      rcases hverdict : (choices es₁.length).verdict with _ | _ | _
      · rfl
      · rfl
      · exact absurd hverdict hflat
    cases hkept hopen
  rw [run_closedLifecycle hcollect hmoved hflat] at hrun
  set es₂ := es₁ ++ [(⟨.positionIsFlat root.symbol, .ok true⟩ : EntryEvent)] with hes₂
  obtain ⟨a, db₂, hupdate⟩ : ∃ a db₂, entryExec (.update root.settled) db (choices es₂.length) =
      (a, db₂) := ⟨_, _, rfl⟩
  have hask : (ask (.update root.settled)).run (alone choices) (db, es₂) =
      (a, db₂, es₂ ++ [⟨.update root.settled, a⟩]) := by
    rw [run_perform, alone]
    simp only [hupdate]
  have hdone : ∃ r', (ask (.update root.settled) >>= fun _ => pure true : EntryProg Bool).run
      (alone choices) (db, es₂) = (r', db₂, es₂ ++ [⟨.update root.settled, a⟩]) ∧
      (r' = .ok true → a = .ok ()) := by
    cases a with
    | ok u => exact ⟨_, run_bind_ok hask, fun _ => rfl⟩
    | error e => exact ⟨_, run_bind_error hask, fun h => by cases h⟩
  obtain ⟨r', hrun', hanswer⟩ := hdone
  obtain ⟨rfl, hworld⟩ := Prod.mk.inj (hrun.symm.trans hrun')
  obtain ⟨rfl, rfl⟩ := Prod.mk.inj hworld
  refine ⟨by simp [hes₂], hmoved, ?_⟩
  cases hstored : db.update (choices es₂.length).now root.settled with
  | ok db₃ => exact ⟨_, db₃, hstored⟩
  | error e =>
    have hfailed : ((.error (.storage e), db) : Except ExecutionError Unit × Db) = (a, db') := by
      rw [← hupdate]
      simp [entryExec, hstored, EntryChoice.commit, Except.map]
    obtain ⟨rfl, rfl⟩ := Prod.mk.inj hfailed
    rcases hmark with hmark | hmark
    · cases hanswer hmark
    · exact absurd rfl hmark

/-- The venue answers, and the position is flat. -/
def EntryChoice.flatAt (now : Instant) : EntryChoice where
  delivery := .answered
  now := now
  clock := ⟨now, now, now⟩
  ids := ⟨10, 11⟩
  fresh := true
  lapsed := false
  issues := []
  flag := true
  reading := ⟨.notFound, .page [] false, .rows [], .rows []⟩
  submitted := .error .connection
  protection := .error .connection
  symbolReading := .error .connection
  done := .ok ()
  verdict := .ok true

theorem exists_settled (hmoved : root.filledQty ≤ moved (db.collectedCloses root))
    (hwritable : db.Writable root) : ∃ choices es, db.Settled root choices es := by
  obtain ⟨now, db', hupdate⟩ := hwritable
  rcases readsAs_collectCloses db root (fun _ => .flatAt now) [] with
    ⟨es₁, hcollect⟩ | ⟨⟨n, hlost⟩, -⟩
  swap
  · exact absurd rfl hlost
  set es₂ := es₁ ++ [(⟨.positionIsFlat root.symbol, .ok true⟩ : EntryEvent)]
  have hask : (ask (.update root.settled)).run (alone fun _ => .flatAt now) (db, es₂) =
      (.ok (), db', es₂ ++ [⟨.update root.settled, .ok ()⟩]) := by
    rw [run_perform, alone]
    simp only [entryExec, EntryChoice.commit, EntryChoice.flatAt, hupdate, Except.map]
  refine ⟨fun _ => .flatAt now, es₂ ++ [⟨.update root.settled, .ok ()⟩], .ok true, db', ?_,
    Or.inl rfl⟩
  rw [run_closedLifecycle hcollect hmoved rfl, run_bind_ok hask]
  rfl

end Settlement

/-- Every settlement is of a flat position, and the fills of the root's own closes, each counted
once, cover what it filled. -/
def Db.SettlesCovered (db : Db) (root : LiveIntentRecord) : Prop :=
  ∀ choices es, db.Settled root choices es →
    (⟨.positionIsFlat root.symbol, .ok true⟩ : EntryEvent) ∈ es ∧
      root.filledQty ≤ db.closeQuantity root

/-! ## Histories -/

/-- What happens to the database : a transaction of an entry, a close or any other component, or
recovery looks at a root. -/
inductive LifecycleOp
  | transaction (write : Db → Db)
  | recover (root : LiveIntentRecord) (choices : ℕ → EntryChoice)

def lifecycleStep (db : Db) : LifecycleOp → Db
  | .transaction write => write db
  | .recover root choices =>
    ((BitgetDispatchExecution.closedLifecycle root).run (alone choices) (db, [])).2.1

/-! ## The rows of a root -/

namespace Db

variable {db : Db} {root : LiveIntentRecord}

theorem mem_rows_of_collected {r : LiveIntentRecord} (h : r ∈ db.collectedCloses root) :
    ∃ row ∈ db.intents.rows, row.record = r := by
  have hget : ∀ {oid}, db.get oid = some r → ∃ row ∈ db.intents.rows, row.record = r := by
    intro oid hr
    obtain ⟨row, hrow, rfl⟩ := Option.map_eq_some_iff.mp hr
    exact ⟨row, (intentRow_eq_some.mp hrow).1, rfl⟩
  simp only [collectedCloses, List.mem_append, List.mem_filterMap] at h
  rcases h with (⟨oid, -, hr⟩ | ⟨oid, -, hr⟩) | h
  · exact hget hr
  · exact hget hr
  · exact List.mem_map.mp (List.mem_filter.mp h).1

theorem moved_settlingCloses :
    moved (db.settlingCloses root) = moved (db.collectedCloses root) := by
  unfold settlingCloses moved
  induction db.collectedCloses root with
  | nil => rfl
  | cons r records ih =>
    by_cases hr : r.filledQty = 0
    · simpa [hr] using ih
    · simpa [hr] using ih

/-- Closes of the root that share no fill are in its fills. -/
theorem sum_recordFills_le {records : List LiveIntentRecord}
    (hown : ∀ r ∈ records, r ∈ db.collectedCloses root ∧ db.isCloseOf root r = true)
    (hapart : records.Pairwise fun r r' => ∀ f ∈ db.recordFills r, f ∉ db.recordFills r') :
    (records.map fun r => ((db.recordFills r).map FillRow.quantity).sum).sum ≤
      db.closeQuantity root := by
  let lists (r : LiveIntentRecord) (f : FillRow) : Bool := !statusDerived f.providerFillId &&
    (r.providerFillIds.contains f.providerFillId || f.clientOrderId = r.clientOid)
  have hsum : (records.map fun r => ((db.recordFills r).map FillRow.quantity).sum).sum =
      ((db.fills.rows.filter fun f => records.any (lists · f)).map FillRow.quantity).sum := by
    refine (sum_filter_any FillRow.quantity (hapart.imp fun hapart f hf hlists => ?_)).symm
    have hnot := hapart f (List.mem_filter.mpr ⟨hf, hlists⟩)
    exact Bool.eq_false_iff.mpr fun hlists' => hnot (List.mem_filter.mpr ⟨hf, hlists'⟩)
  rw [hsum]
  refine List.Sublist.sum_le_sum (List.Sublist.map _ (List.monotone_filter_right _ fun f hf => ?_))
    fun q hq => ?_
  · obtain ⟨r, hr, hlists⟩ := List.any_eq_true.mp hf
    obtain ⟨hcollected, hclose⟩ := hown r hr
    obtain ⟨row, hrow, rfl⟩ := mem_rows_of_collected hcollected
    simp only [lists, Bool.and_eq_true] at hlists
    simp only [Bool.and_eq_true, List.any_eq_true]
    exact ⟨hlists.1, row, hrow, hclose, hlists.2⟩
  · obtain ⟨f, -, rfl⟩ := List.mem_map.mp hq
    exact f.quantity_pos.le

/-- Where the rows are the root's own, what they add up to is in its fills, or one of them has
closed it alone. -/
theorem OwnedCloses.covered (h : db.OwnedCloses root)
    (hmoved : root.filledQty ≤ moved (db.collectedCloses root)) :
    root.filledQty ≤ db.closeQuantity root := by
  have hown : ∀ r ∈ db.settlingCloses root,
      r ∈ db.collectedCloses root ∧ db.isCloseOf root r = true :=
    fun r hr => ⟨(List.mem_filter.mp hr).1, h.own r hr⟩
  by_cases hnodup : (db.settlingCloses root).Nodup
  · have hapart := List.Nodup.pairwise_of_forall_ne hnodup fun r hr r' hr' => h.apart r hr r' hr'
    calc root.filledQty ≤ moved (db.collectedCloses root) := hmoved
      _ = moved (db.settlingCloses root) := moved_settlingCloses.symm
      _ ≤ ((db.settlingCloses root).map fun r =>
          ((db.recordFills r).map FillRow.quantity).sum).sum := List.sum_le_sum h.proven
      _ ≤ db.closeQuantity root := sum_recordFills_le hown hapart
  · obtain ⟨r, hr⟩ := List.exists_duplicate_iff_not_nodup.mpr hnodup
    have hmem := hr.mem
    have htwice : root.filledQty ≤ r.filledQty :=
      h.once r hmem (List.duplicate_iff_two_le_count.mp hr)
    have hproven : ((db.recordFills r).map FillRow.quantity).sum ≤ db.closeQuantity root := by
      simpa using sum_recordFills_le (fun r' hr' => List.mem_singleton.mp hr' ▸ hown r hmem)
        (List.pairwise_singleton _ r)
    exact htwice.trans ((h.proven r hmem).trans hproven)

end Db

/-- In every history in which recovery looks at roots whose collected rows are their own, a
lifecycle is settled only by its own closes. -/
theorem lifecycles_covered {db : Db} {history : List LifecycleOp}
    (howned : ∀ p ∈ visits lifecycleStep db history, ∀ root choices,
      p.2 = .recover root choices → p.1.OwnedCloses root) :
    ∀ p ∈ visits lifecycleStep db history, ∀ root choices, p.2 = .recover root choices →
      p.1.SettlesCovered root := by
  intro p hp root choices hlook choices' es hsettled
  obtain ⟨hflat, hmoved, -⟩ := settled_cases hsettled
  exact ⟨hflat, (howned p hp root choices hlook).covered hmoved⟩

/-! ## A symbol that was traded before -/

/-- An entry of 1, of which no close is recorded. -/
def laterRoot : LiveIntentRecord where
  clientOid := "live-bitget-BTCUSDT-2"
  symbol := "BTCUSDT"
  side := .buy
  state := .filled
  requestedQty := 1
  filledQty := 1
  providerOrderId := some "950"

/-- Before it, the symbol was entered and closed by another root. -/
def tradedBefore : Db where
  intents :=
    ⟨[{ record :=
          { clientOid := "live-bitget-BTCUSDT-1-close"
            symbol := "BTCUSDT"
            side := .sell
            role := .close
            state := .filled
            requestedQty := 1
            filledQty := 1
            providerOrderId := some "900"
            providerFillIds := ["77"] }
        createdAt := 10
        checked := Db.filledClose_checked },
      { record := laterRoot
        createdAt := 20
        checked := by decide +kernel }], by decide +kernel⟩
  fills := Db.closableLedger.fills

/-- The close of the first root settles the second one, which has no close. -/
theorem laterRoot_settled :
    ¬ ∀ (db : Db) (history : List LifecycleOp), ∀ p ∈ visits lifecycleStep db history,
      ∀ root choices, p.2 = .recover root choices → p.1.SettlesCovered root := by
  intro h
  have hwritable : tradedBefore.Writable laterRoot :=
    ⟨30, Db.update_isOk (r := laterRoot) (by decide +kernel) rfl (by decide +kernel)⟩
  have hmoved : laterRoot.filledQty ≤ moved (tradedBefore.collectedCloses laterRoot) := by
    decide +kernel
  obtain ⟨choices, es, hsettled⟩ := exists_settled hmoved hwritable
  have hcovered : laterRoot.filledQty ≤ tradedBefore.closeQuantity laterRoot :=
    (h tradedBefore [.recover laterRoot choices] (tradedBefore, _) (by simp [visits]) laterRoot
      choices rfl choices es hsettled).2
  revert hcovered
  decide +kernel

/-! ## A root that was closed natively -/

/-- The close of the later root. -/
def laterClose : LiveIntentRecord where
  clientOid := "live-bitget-BTCUSDT-2-close"
  symbol := "BTCUSDT"
  side := .sell
  role := .close
  state := .filled
  requestedQty := 1
  filledQty := 1
  providerOrderId := some "900"
  providerFillIds := ["77"]

/-- The later root is closed by its own close, which is collected under its id and as a close of
the symbol. -/
def closedLater : Db where
  intents :=
    ⟨[{ record := laterClose
        createdAt := 10
        checked := by decide +kernel },
      { record := laterRoot
        createdAt := 20
        checked := by decide +kernel }], by decide +kernel⟩
  fills := Db.closableLedger.fills

theorem settlingCloses_closedLater :
    closedLater.settlingCloses laterRoot = [laterClose, laterClose] := by
  decide +kernel

theorem closedLater_owned : closedLater.OwnedCloses laterRoot := by
  have hclose : ∀ r ∈ closedLater.settlingCloses laterRoot, r = laterClose := by
    rw [settlingCloses_closedLater]
    simp
  refine ⟨fun r hr => ?_, fun r hr => ?_, fun r hr r' hr' hne => ?_, fun r hr _ => ?_⟩
  · rw [hclose r hr]
    decide +kernel
  · rw [hclose r hr]
    decide +kernel
  · exact absurd ((hclose r hr).trans (hclose r' hr').symm) hne
  · rw [hclose r hr]
    decide +kernel

theorem closedLater_covered : ∃ choices es, closedLater.Settled laterRoot choices es ∧
    (⟨.positionIsFlat laterRoot.symbol, .ok true⟩ : EntryEvent) ∈ es ∧
    laterRoot.filledQty ≤ closedLater.closeQuantity laterRoot := by
  have hwritable : closedLater.Writable laterRoot :=
    ⟨30, Db.update_isOk (r := laterRoot) (by decide +kernel) rfl (by decide +kernel)⟩
  have hmoved : laterRoot.filledQty ≤ moved (closedLater.collectedCloses laterRoot) := by
    decide +kernel
  obtain ⟨choices, es, hsettled⟩ := exists_settled hmoved hwritable
  refine ⟨choices, es, hsettled, @lifecycles_covered closedLater [.recover laterRoot choices]
    (fun p hp root choices' hlook => ?_) (closedLater, .recover laterRoot choices)
    (by simp [visits]) laterRoot choices rfl choices es hsettled⟩
  obtain rfl : p = (closedLater, .recover laterRoot choices) := by simpa [visits] using hp
  cases hlook
  exact closedLater_owned

end FattyTrader
