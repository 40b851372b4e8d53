import FattyTrader.FallbackLaws

/-!
# The two fallback lanes together

A call sends a close only after a claim it won, once for each claim (`Balanced`, and
`fallback_follows` for both lanes). A claim is won where the intent was not there and leaves it
there, so over all calls a client order id is claimed at most once, and sent at most once
(`fallback_posted_once`).

The status of a row has no such lock. Two runs show what the lanes do to it with rows they loaded
earlier, and `fallback_moves_forward` holds of every run in which no step takes a row back.
-/

set_option linter.unusedSectionVars false

open Tables Runs Programs

namespace FattyTrader

open Prog FallbackProg

/-! ## Claims and POSTs of one call -/

/-- The claim of the intent was won. -/
def claims (clientOid : String) : FallbackEvent → Bool
  | ⟨.ensureCloseIntent oid _ _ _, .ok true⟩ => oid = clientOid
  | _ => false

def FallbackOp.closes (clientOid : String) : FallbackOp → Bool
  | .placeMarketClose _ _ _ oid => oid = clientOid
  | _ => false

/-- The close was sent, whatever became of it. -/
def closePosts (clientOid : String) (e : FallbackEvent) : Bool := e.op.closes clientOid

/-- No close was sent more often than it was claimed. -/
def Balanced (es : List FallbackEvent) : Prop :=
  ∀ oid, es.countP (closePosts oid) ≤ es.countP (claims oid)

/-- A close is sent while a claim of it is unused. -/
def fallbackProtocol (_ : FallbackCall) (es : List FallbackEvent) : FallbackOp → Prop
  | .placeMarketClose _ _ _ oid => es.countP (closePosts oid) < es.countP (claims oid)
  | _ => True

/-- The operation sends nothing. -/
def FallbackOp.Quiet : FallbackOp → Prop
  | .placeMarketClose _ _ _ _ => False
  | _ => True

theorem FallbackOp.Quiet.closes {o : FallbackOp} (h : o.Quiet) (oid : String) :
    o.closes oid = false := by
  cases o <;> first | rfl | exact h.elim

theorem balanced_nil : Balanced [] := fun _ => Nat.le_refl _

theorem Balanced.quiet {es qs : List FallbackEvent} (h : Balanced es)
    (hqs : ∀ e ∈ qs, e.op.Quiet) : Balanced (es ++ qs) := by
  intro oid
  have hnone : qs.countP (closePosts oid) = 0 := by
    rw [List.countP_eq_zero]
    intro e he
    simp [closePosts, (hqs e he).closes oid]
  rw [List.countP_append, List.countP_append, hnone]
  have := h oid
  omega

section Lanes

variable {i : FallbackCall} {es : List FallbackEvent} {α β : Type}
  {A : (o : FallbackOp) → Except FallbackError (FallbackAns o) → Prop}

/-- A part that sends nothing stays balanced. -/
theorem quiet_obeys {p : FallbackProg α} (hp : p.OpsIn FallbackOp.Quiet) (hes : Balanced es) :
    Obeys A (fallbackProtocol i) p es fun es' _ => Balanced es' := by
  refine obeys_of_opsIn hp (fun qs o _ ho => ?_) fun qs r hqs => hes.quiet hqs
  cases o <;> trivial

theorem call_quiet {o : FallbackOp} (h : o.Quiet) : (call o).OpsIn FallbackOp.Quiet :=
  opsIn_perform h

theorem reading_quiet {p : FallbackProg α} (h : p.OpsIn FallbackOp.Quiet) :
    (reading p).OpsIn FallbackOp.Quiet := by
  refine opsIn_bind (fun r => ?_) (opsIn_attempt h)
  cases r <;> trivial

theorem ownedQuantity_quiet (positions : PositionPayload) (entry : FallbackRow) :
    (ownedQuantity positions entry).OpsIn FallbackOp.Quiet := by
  unfold ownedQuantity
  split
  · split
    · trivial
    split
    · trivial
    split
    · trivial
    · exact opsIn_bind_pure (call_quiet trivial)
  · trivial

theorem reconcileCloseEvidence_quiet (entry : FallbackRow) (flat : Bool) :
    (reconcileCloseEvidence entry flat).OpsIn FallbackOp.Quiet := by
  refine opsIn_bind (fun r => ?_) (opsIn_attempt (call_quiet trivial))
  rcases r with e | _ | rows
  · exact opsIn_bind_pure (call_quiet trivial)
  · trivial
  · exact call_quiet trivial

theorem remainingQuantity_quiet (symbol : String) :
    (remainingQuantity symbol).OpsIn FallbackOp.Quiet := by
  refine opsIn_bind (fun r => ?_) (reading_quiet (call_quiet trivial))
  cases r <;> trivial

/-- From a claim that was won to the close and what follows it. -/
theorem claimedClose_obeys {entry : FallbackRow} {symbol clientOid : String} {side : Side}
    {quantity : ℚ} {k : Except FallbackError (Option (Option String)) → FallbackProg β}
    (hk : ∀ r, (k r).OpsIn FallbackOp.Quiet) (hes : Balanced es) :
    Obeys A (fallbackProtocol i)
      (call (.markClosing entry.id clientOid none) >>= fun _ =>
        attempt (call (.placeMarketClose symbol side quantity clientOid)) >>= k)
      (es ++ [⟨.ensureCloseIntent clientOid symbol side quantity, .ok true⟩])
      fun es' _ => Balanced es' := by
  refine obeys_perform_bind trivial (fun _ _ => ?_) fun e _ => ?_
  · refine obeys_bind.mpr (obeys_attempt.mpr (obeys_perform.mpr ⟨?_, fun r _ => ?_⟩))
    · have := hes clientOid
      simp only [fallbackProtocol, List.countP_append, List.countP_singleton, closePosts,
        FallbackOp.closes, claims]
      simp
      omega
    · refine quiet_obeys (hk r) fun oid => ?_
      have := hes oid
      simp only [List.countP_append, List.countP_singleton, closePosts, FallbackOp.closes, claims]
      by_cases h : clientOid = oid
      · simp [h]
        omega
      · simp [h]
        omega
  · rw [List.append_assoc]
    refine hes.quiet fun e he => ?_
    simp only [List.cons_append, List.nil_append, List.mem_cons, List.not_mem_nil, or_false] at he
    rcases he with rfl | rfl <;> trivial

theorem pollingClose_obeys (entry : FallbackRow) (openQty mark : ℚ) (reason : String)
    (hes : Balanced es) :
    Obeys A (fallbackProtocol i) (pollingClose entry openQty mark reason) es
      fun es' _ => Balanced es' := by
  refine obeys_perform_bind trivial (fun claimed _ => ?_) fun e _ => hes.quiet (by simp; trivial)
  cases claimed with
  | false => exact hes.quiet (by simp; trivial)
  | true =>
    refine claimedClose_obeys (fun r => ?_) hes
    cases r with
    | error e => exact opsIn_bind_pure (call_quiet trivial)
    | ok result =>
      refine opsIn_bind (fun _ => ?_) (call_quiet trivial)
      refine opsIn_bind (fun _ => ?_) (call_quiet trivial)
      refine opsIn_bind (fun remaining => ?_) (remainingQuantity_quiet _)
      cases remaining with
      | none => exact opsIn_bind_pure (call_quiet trivial)
      | some q =>
        dsimp only
        split
        · trivial
        · exact opsIn_bind_pure (reconcileCloseEvidence_quiet _ _)

theorem streamClose_obeys (entry : FallbackRow) (owned : ℚ) (hes : Balanced es) :
    Obeys A (fallbackProtocol i) (streamClose entry owned) es fun es' _ => Balanced es' := by
  unfold streamClose
  dsimp only
  split
  · exact hes
  refine obeys_perform_bind trivial (fun claimed _ => ?_) fun e _ => hes.quiet (by simp; trivial)
  cases claimed with
  | false => exact hes.quiet (by simp; trivial)
  | true =>
    refine claimedClose_obeys (fun r => ?_) hes
    rcases r with e | _ | providerOrderId
    · exact opsIn_bind_pure (call_quiet trivial)
    · exact opsIn_bind_pure (call_quiet trivial)
    · refine opsIn_bind (fun _ => ?_) (call_quiet trivial)
      refine opsIn_bind (fun _ => ?_) (call_quiet trivial)
      refine opsIn_bind (fun remaining => ?_) (remainingQuantity_quiet _)
      cases remaining with
      | none => exact opsIn_bind_pure (call_quiet trivial)
      | some q =>
        dsimp only
        split
        · exact opsIn_bind_pure (call_quiet trivial)
        · exact opsIn_bind_pure (reconcileCloseEvidence_quiet _ _)

/-- A first part that sends nothing, before a sequel that stays balanced. -/
theorem obeys_bind_quiet {p : FallbackProg α} {f : α → FallbackProg β}
    (hp : p.OpsIn FallbackOp.Quiet) (hes : Balanced es)
    (hf : ∀ a es, Balanced es → Obeys A (fallbackProtocol i) (f a) es fun es' _ => Balanced es') :
    Obeys A (fallbackProtocol i) (p >>= f) es fun es' _ => Balanced es' := by
  refine obeys_bind.mpr ((quiet_obeys hp hes).imp fun es' r hes' => ?_)
  cases r with
  | error e => exact hes'
  | ok a => exact hf a es' hes'

theorem pollEntry_obeys (environment : Option Environment) (entry : FallbackRow)
    (hes : Balanced es) :
    Obeys A (fallbackProtocol i) (pollEntry environment entry) es fun es' _ => Balanced es' := by
  unfold pollEntry
  split
  · exact hes
  refine obeys_bind_quiet (reading_quiet (call_quiet trivial)) hes fun positions es hes => ?_
  cases positions with
  | none => exact hes
  | some positions =>
    dsimp only
    split
    · exact hes
    next openQty _ =>
      split
      · split
        · exact quiet_obeys (opsIn_bind_pure (reconcileCloseEvidence_quiet _ _)) hes
        · exact quiet_obeys (opsIn_bind_pure (call_quiet trivial)) hes
      split
      · exact quiet_obeys (opsIn_bind_pure (reconcileCloseEvidence_quiet _ _)) hes
      refine obeys_bind_quiet (ownedQuantity_quiet _ _) hes fun owned es hes => ?_
      cases owned with
      | none => exact hes
      | some owned =>
        refine obeys_bind_quiet (reading_quiet (call_quiet trivial)) hes fun marks es hes => ?_
        cases marks with
        | none => exact hes
        | some marks =>
          dsimp only
          split
          · exact hes
          split
          · exact hes
          · exact pollingClose_obeys _ _ _ _ hes

theorem runFallbackMonitor_obeys (environment : Option Environment) (hes : Balanced es) :
    Obeys A (fallbackProtocol i) (runFallbackMonitor environment) es
      fun es' _ => Balanced es' := by
  refine obeys_bind_quiet (opsIn_attempt (call_quiet trivial)) hes fun r es hes => ?_
  cases r with
  | error e => exact hes
  | ok entries =>
    refine obeys_bind.mpr ((obeys_each (I := Balanced) (Q := fun es' _ => Balanced es')
      (fun _ _ h => h) (fun entry _ es hes => pollEntry_obeys environment entry hes) hes).imp
      fun es' r hes' => ?_)
    cases r <;> exact hes'

theorem submitFallbackClose_obeys (environment : Option Environment) (entry : FallbackRow)
    (hes : Balanced es) :
    Obeys A (fallbackProtocol i) (submitFallbackClose environment entry) es
      fun es' _ => Balanced es' := by
  unfold submitFallbackClose
  dsimp only
  split
  · exact hes
  refine obeys_bind_quiet (reading_quiet (call_quiet trivial)) hes fun positions es hes => ?_
  cases positions with
  | none => exact hes
  | some positions =>
    dsimp only
    split
    · exact hes
    split
    · exact quiet_obeys (opsIn_bind_pure (reconcileCloseEvidence_quiet _ _)) hes
    split
    · exact quiet_obeys (opsIn_bind_pure (call_quiet trivial)) hes
    refine obeys_bind_quiet (ownedQuantity_quiet _ _) hes fun owned es hes => ?_
    cases owned with
    | none => exact hes
    | some owned => exact streamClose_obeys entry owned hes

end Lanes

/-- Both lanes send a close only while a claim of it is unused. -/
theorem fallback_follows : fallbackSystem.Follows (fun _ _ => True) fallbackProtocol := by
  intro i
  cases i with
  | poll environment =>
    refine obeys_bind.mpr ((runFallbackMonitor_obeys environment balanced_nil).imp
      fun es r _ => ?_)
    cases r <;> trivial
  | stream environment fallbackId =>
    refine obeys_bind.mpr (Obeys.imp (Q := fun es' _ => Balanced es') ?_ fun es r _ => ?_)
    · refine obeys_bind_quiet (call_quiet trivial) balanced_nil fun entries es hes => ?_
      split
      · exact hes
      · exact submitFallbackClose_obeys environment _ hes
    · cases r <;> trivial

theorem fallback_answers : fallbackSystem.Answers fun _ _ => True :=
  fun _ _ _ _ _ _ => trivial

/-! ## Claims of all calls -/

variable {s t u : FallbackState} {ls ls' : List FallbackLabel} {w w' : FallbackWorld}
  {o : FallbackOp} {c : FallbackChoice} {oid : String} {n : ℕ}

theorem claims_eq_true {e : FallbackEvent} : claims oid e = true ↔
    ∃ symbol side quantity, e = ⟨.ensureCloseIntent oid symbol side quantity, .ok true⟩ := by
  unfold claims
  split
  next clientOid symbol side quantity =>
    simp only [decide_eq_true_eq]
    constructor
    · rintro rfl
      exact ⟨symbol, side, quantity, rfl⟩
    · rintro ⟨symbol', side', quantity', h⟩
      cases h
      rfl
  next hother =>
    constructor
    · nofun
    · rintro ⟨symbol, side, quantity, rfl⟩
      exact absurd rfl (hother oid symbol side quantity)

theorem exec_keepsIntents {r : Except FallbackError (FallbackAns o)}
    (h : fallbackSystem.exec o w c = some (r, w')) : w.db.KeepsIntents w'.db := by
  have hw : (fallbackExec o w c).2 = w' := congrArg Prod.snd (Option.some.inj h)
  rcases fallbackExec_world o w c with heq | hwrites
  · rw [← hw, heq]
    exact .refl _
  · exact hw ▸ hwrites.keepsIntents

/-- A claim is won where the intent was not there, and leaves it there. -/
theorem get_of_claims {r : Except FallbackError (FallbackAns o)}
    (h : fallbackSystem.exec o w c = some (r, w')) (hc : claims oid ⟨o, r⟩ = true) :
    w.db.get oid = none ∧ w'.db.get oid ≠ none := by
  obtain ⟨symbol, side, quantity, he⟩ := claims_eq_true.mp hc
  cases he
  rcases FallbackWorld.ensureCloseIntent_ok (commit_ok (Option.some.inj h)) with
    ⟨-, hwon⟩ | ⟨owner, db, -, -, hnone, -, ⟨r, hr, -⟩, hset⟩
  · cases hwon
  · refine ⟨hnone rfl, ?_⟩
    rw [(FallbackWorld.setFallback_ok hset).1]
    simp [hr]

/-- The claims of a close that all calls won. -/
def claimCount (oid : String) (s : FallbackState) : ℕ := s.trace.countP fun q => claims oid q.2

/-- Every call is balanced, and no close was claimed twice ; the intent of a claimed close is in
the ledger. -/
structure ClaimedOnce (s : FallbackState) : Prop where
  balanced : ∀ n, Balanced (own n s.trace)
  once : ∀ oid, claimCount oid s ≤ 1
  kept : ∀ oid, claimCount oid s ≠ 0 → s.world.db.get oid ≠ none

theorem claimedOnce_init (w : FallbackWorld) : ClaimedOnce (State.init w) :=
  ⟨fun _ => balanced_nil, fun _ => Nat.zero_le _, fun _ h => absurd rfl h⟩

theorem balanced_snoc {i : FallbackCall} {es : List FallbackEvent} (h : Balanced es)
    (hφ : fallbackProtocol i es o) (r : Except FallbackError (FallbackAns o)) :
    Balanced (es ++ [⟨o, r⟩]) := by
  intro oid
  have := h oid
  simp only [List.countP_append, List.countP_singleton]
  by_cases hc : closePosts oid ⟨o, r⟩ = true
  · cases o with
    | placeMarketClose symbol side quantity clientOid =>
      obtain rfl : clientOid = oid := by simpa [closePosts, FallbackOp.closes] using hc
      have hlt : es.countP (closePosts clientOid) < es.countP (claims clientOid) := hφ
      rw [if_pos hc]
      omega
    | _ => cases hc
  · rw [if_neg hc]
    omega

theorem claimedOnce_acted {i : FallbackCall} {r : Except FallbackError (FallbackAns o)}
    (h : ClaimedOnce s) (hφ : fallbackProtocol i (own n s.trace) o)
    (hx : fallbackSystem.exec o s.world c = some (r, w')) (p : FallbackProg Unit) :
    ClaimedOnce (s.acted n i ⟨o, r⟩ p w') := by
  have hcount : ∀ oid, claimCount oid (s.acted n i ⟨o, r⟩ p w') =
      claimCount oid s + if claims oid ⟨o, r⟩ = true then 1 else 0 := by
    intro oid
    simp [claimCount, State.acted, List.countP_append, List.countP_singleton]
  have hkeep := exec_keepsIntents hx
  refine ⟨fun m => ?_, fun oid => ?_, fun oid hne => ?_⟩
  · rw [State.own_acted]
    split
    next hm => exact hm ▸ balanced_snoc (h.balanced n) hφ r
    · simpa using h.balanced m
  · rw [hcount]
    split
    next hc =>
      have hzero : claimCount oid s = 0 := by
        by_contra hne
        exact h.kept oid hne (get_of_claims hx hc).1
      omega
    · exact h.once oid
  · rw [hcount] at hne
    by_cases hc : claims oid ⟨o, r⟩ = true
    · exact (get_of_claims hx hc).2
    · rw [if_neg hc] at hne
      exact hkeep.get_ne_none (h.kept oid hne)

theorem claimedOnce_env {e : FallbackEnv} (h : ClaimedOnce s)
    (he : fallbackSystem.env s.world e = some w') : ClaimedOnce { s with world := w' } :=
  ⟨h.balanced, h.once, fun oid hne =>
    (FallbackWorld.env_advances he).intents.get_ne_none (h.kept oid hne)⟩

theorem claimedOnce_run (h : ClaimedOnce s)
    (hs : System.Sound (fun _ _ => True) fallbackProtocol s)
    (hrun : Run fallbackSystem.Step s ls t) : ClaimedOnce t :=
  (System.inv fallback_answers fallback_follows (G := fun _ _ => True) (I := ClaimedOnce)
    (fun _ _ _ h _ => ⟨h.balanced, h.once, h.kept⟩)
    (fun _ _ _ _ _ _ _ _ _ h _ hφ hx _ => claimedOnce_acted h hφ hx _)
    (fun _ _ _ _ h he _ => claimedOnce_env h he) hs h
    (hrun.mono fun _ _ _ h => ⟨trivial, h⟩)).2

/-- Once the intent of a close is there, no claim of it is won any more. -/
theorem claims_unchanged (hs : System.Sound (fun _ _ => True) fallbackProtocol s)
    (hget : s.world.db.get oid ≠ none) (hrun : Run fallbackSystem.Step s ls t) (n : ℕ) :
    (own n t.trace).countP (claims oid) = (own n s.trace).countP (claims oid) := by
  let I : FallbackState → Prop := fun u => u.world.db.get oid ≠ none ∧
    (own n u.trace).countP (claims oid) = (own n s.trace).countP (claims oid)
  refine ((System.inv fallback_answers fallback_follows (G := fun _ _ => True) (I := I)
    (fun _ _ _ h _ => h) ?_ ?_ hs ⟨hget, rfl⟩ (hrun.mono fun _ _ _ h => ⟨trivial, h⟩)).2).2
  · rintro u m i o k c r w' - ⟨hne, hcount⟩ - - hx -
    refine ⟨(exec_keepsIntents hx).get_ne_none hne, ?_⟩
    have hnot : claims oid ⟨o, r⟩ ≠ true := fun hc => hne (get_of_claims hx hc).1
    rw [State.own_acted]
    split
    · rw [List.countP_append, List.countP_singleton, if_neg hnot, Nat.add_zero, hcount]
    · simpa using hcount
  · rintro u e w' - ⟨hne, hcount⟩ he -
    exact ⟨(FallbackWorld.env_advances he).intents.get_ne_none hne, hcount⟩

/-- In every run at most one close is sent for a client order id. Where the intent of a close is
there already, a call that did not win its claim sends none. -/
theorem fallback_posted_once (hs : Run fallbackSystem.Step (State.init w) ls s)
    (ht : Run fallbackSystem.Step s ls' t) :
    (∀ oid, t.trace.countP (fun q => closePosts oid q.2) ≤ 1) ∧
      ∀ oid n, s.world.db.get oid ≠ none → (own n s.trace).countP (claims oid) = 0 →
        (own n t.trace).countP (closePosts oid) = 0 := by
  have hsound := System.sound_run fallback_answers fallback_follows (System.sound_init w) hs
  have honce := claimedOnce_run (claimedOnce_init w) (System.sound_init w) (hs.append ht)
  constructor
  · intro oid
    have hle : t.trace.countP (fun q => closePosts oid q.2) ≤ claimCount oid t :=
      countP_le_of_own (Nat.le_refl _) fun n => honce.balanced n oid
    exact hle.trans (honce.once oid)
  · intro oid n hget hnone
    have hclaims := claims_unchanged hsound hget ht n
    have := honce.balanced n oid
    omega

/-! ## Rows that only move forward -/

/-- The row of the close is closing or triggered, and may take the fills of the close. -/
def FallbackWorld.TakesFills (w : FallbackWorld) (clientOid : String) : Prop :=
  ∃ row ∈ w.fallbacks.rows, ∃ r, fallbackClientOid row.id = clientOid ∧
    (row.state = .closing ∨ row.state = .triggered) ∧
    w.closeTarget row.id row.symbol = some (row, r)

theorem FallbackWorld.closeTarget_iff {row : FallbackRow} {r : LiveIntentRecord}
    (hrow : row ∈ w.fallbacks.rows) : w.closeTarget row.id row.symbol = some (row, r) ↔
      row.state ≠ .cancelled ∧ w.db.get (fallbackClientOid row.id) = some r ∧
        r.role = .close ∧ r.symbol = row.symbol ∧ r.side = row.direction.closeSide := by
  have hfind : w.fallbacks.find FallbackRow.id row.id = some row :=
    (Table.find_eq_some_iff fun _ _ => FallbackRow.conflict_of_id).mpr ⟨hrow, rfl⟩
  simp only [closeTarget, hfind, true_and]
  by_cases hstate : row.state = .cancelled
  · simp [hstate]
  · cases hget : w.db.get (fallbackClientOid row.id) with
    | none => simp [hstate]
    | some r' =>
      simp only [hstate, not_false_eq_true, if_true, ne_eq, true_and, Option.some.injEq]
      constructor
      · intro h
        split at h
        next hr =>
          obtain rfl : r' = r := by simpa using h
          exact ⟨rfl, hr⟩
        · cases h
      · rintro ⟨rfl, hr⟩
        rw [if_pos hr]

theorem FallbackWorld.TakesFills.advances (h : w.TakesFills oid) (hadv : w.Advances w') :
    w'.TakesFills oid := by
  obtain ⟨row, hrow, r, hoid, hstate, htarget⟩ := h
  obtain ⟨-, hget, hrole, hsymbol, hside⟩ := (closeTarget_iff hrow).mp htarget
  obtain ⟨row', hrow', hid, hsymbol', hdirection, hforward⟩ := hadv.rows row hrow
  obtain ⟨r', hget', hrsymbol, hrside, hrrole⟩ := Db.keepsIntents_iff.mp hadv.intents _ r hget
  have hstate' : row'.state = .closing ∨ row'.state = .triggered := by
    rcases hforward with heq | hactive | ⟨-, htriggered⟩
    · exact heq ▸ hstate
    · rcases hstate with hs | hs <;> simp [hactive] at hs
    · exact Or.inr htriggered
  refine ⟨row', hrow', r', hid ▸ hoid, hstate', (closeTarget_iff hrow').mpr ⟨?_, ?_, ?_, ?_, ?_⟩⟩
  · rcases hstate' with hs | hs <;> simp [hs]
  · rw [hid, hget']
  · exact hrrole.trans hrole
  · rw [hrsymbol, hsymbol, hsymbol']
  · rw [hrside, hside, hdirection]

/-- A claim that is won leaves a row that may take the fills. -/
theorem takesFills_of_claims {r : Except FallbackError (FallbackAns o)}
    (h : fallbackSystem.exec o w c = some (r, w')) (hc : claims oid ⟨o, r⟩ = true) :
    w'.TakesFills oid := by
  obtain ⟨symbol, side, quantity, he⟩ := claims_eq_true.mp hc
  cases he
  rcases FallbackWorld.ensureCloseIntent_ok (commit_ok (Option.some.inj h)) with
    ⟨-, hwon⟩ | ⟨owner, db, howner, -, -, -, ⟨r, hr, hsymbol, hside, hrole⟩, hset⟩
  · cases hwon
  obtain ⟨hmem, hosymbol, hoside, -, -, hoid⟩ :=
    FallbackWorld.mem_closeOwners.mp (howner ▸ List.mem_cons_self)
  obtain ⟨hdb, hrows⟩ := FallbackWorld.setFallback_ok hset
  have hrow : { owner with
      state := .closing
      closeReason := some "close-claimed"
      closeOrderId := some oid } ∈ w'.fallbacks.rows := by
    rw [hrows]
    exact List.mem_map.mpr ⟨owner, hmem, by simp⟩
  refine ⟨_, hrow, r, hoid, Or.inl rfl, (FallbackWorld.closeTarget_iff hrow).mpr ⟨nofun, ?_, hrole,
    hsymbol.trans hosymbol.symm, hside.trans hoside.symm⟩⟩
  rw [hdb]
  exact hoid ▸ hr

/-- The step takes no row back. -/
def TakesNothingBack (s : FallbackState) (l : FallbackLabel) : Prop :=
  ∀ n c i o, l = .act n c → s.next n = some (i, o) → ¬ s.world.Regresses c.now o

theorem exec_advances {r : Except FallbackError (FallbackAns o)}
    (h : fallbackSystem.exec o w c = some (r, w')) (hr : ¬ w.Regresses c.now o) :
    w.Advances w' := by
  have hw : (fallbackExec o w c).2 = w' := congrArg Prod.snd (Option.some.inj h)
  rcases fallbackExec_world o w c with heq | hwrites
  · rw [← hw, heq]
    exact .refl _
  · exact hw ▸ hwrites.advances hr

/-- From a state on, every row is further along, and each claimed close may take its fills. -/
theorem advances_run (hs : System.Sound (fun _ _ => True) fallbackProtocol s)
    (hsent : ∀ oid, claimCount oid s ≠ 0 → s.world.TakesFills oid)
    (hrun : Run (Guard fallbackSystem.Step TakesNothingBack) s ls t) :
    s.world.Advances t.world ∧ ∀ oid, claimCount oid t ≠ 0 → t.world.TakesFills oid := by
  let I : FallbackState → Prop := fun u => s.world.Advances u.world ∧
    ∀ oid, claimCount oid u ≠ 0 → u.world.TakesFills oid
  refine (System.inv fallback_answers fallback_follows (G := TakesNothingBack) (I := I)
    (fun _ _ _ h _ => h) ?_ ?_ hs ⟨.refl _, hsent⟩ hrun).2
  · rintro u n i o k c r w' - ⟨hadv, htakes⟩ hn - hx hG
    have hstep : u.world.Advances w' :=
      exec_advances hx (hG n c i o rfl (State.next_eq_some.mpr ⟨k, hn⟩))
    refine ⟨hadv.trans hstep, fun oid hne => ?_⟩
    by_cases hc : claims oid ⟨o, r⟩ = true
    · exact takesFills_of_claims hx hc
    · refine (htakes oid ?_).advances hstep
      simpa [claimCount, State.acted, List.countP_append, List.countP_singleton, hc] using hne
  · rintro u e w' - ⟨hadv, htakes⟩ he -
    have hstep := FallbackWorld.env_advances he
    exact ⟨hadv.trans hstep, fun oid hne => (htakes oid hne).advances hstep⟩

/-- In a run in which no step takes a row back, the status of every row only moves forward, and
the row of every close that was sent may take its fills. -/
theorem fallback_moves_forward
    (hs : Run (Guard fallbackSystem.Step TakesNothingBack) (State.init w) ls s)
    (ht : Run (Guard fallbackSystem.Step TakesNothingBack) s ls' t) :
    (∀ row ∈ s.world.fallbacks.rows, ∃ row' ∈ t.world.fallbacks.rows, row'.id = row.id ∧
        row.state.Forward row'.state) ∧
      ∀ oid, t.trace.countP (fun q => closePosts oid q.2) ≠ 0 → t.world.TakesFills oid := by
  have hsound := System.sound_run fallback_answers fallback_follows (System.sound_init w)
    hs.of_guard
  obtain ⟨-, hsent⟩ := advances_run (System.sound_init w) (fun _ h => absurd rfl h) hs
  obtain ⟨hadv, htakes⟩ := advances_run hsound hsent ht
  have honce := claimedOnce_run (claimedOnce_init w) (System.sound_init w)
    (hs.append ht).of_guard
  constructor
  · intro row hrow
    obtain ⟨row', hrow', hid, -, -, hforward⟩ := hadv.rows row hrow
    exact ⟨row', hrow', hid, hforward⟩
  · intro oid hposted
    have hle : t.trace.countP (fun q => closePosts oid q.2) ≤ claimCount oid t :=
      countP_le_of_own (Nat.le_refl _) fun n => honce.balanced n oid
    exact htakes oid (by omega)

/-! ## A long position at its stop -/

/-- The fallback of a long position of one contract. -/
def longFallback : FallbackRow where
  id := "6f1d0c2e-0000-4000-8000-000000000001"
  symbol := "BTCUSDT"
  direction := .long
  entryPrice := 100
  stopLoss := 90
  takeProfits := [110]
  quantity := 1
  positionKey := some "root"
  providerPositionEpoch := some "1000"
  environment := some .live

def heldEntry : LiveIntentRecord where
  clientOid := "root"
  symbol := "BTCUSDT"
  side := .buy
  state := .filled
  requestedQty := 1
  filledQty := 1

theorem heldEntry_checked : heldEntry.Checked := by decide

def heldWorld : FallbackWorld where
  db := { intents := ⟨[⟨heldEntry, 0, heldEntry_checked⟩], by decide⟩ }
  fallbacks := ⟨[longFallback], by decide⟩

/-- The position is open and the mark is below the stop. -/
def FallbackChoice.stopped : FallbackChoice where
  delivery := .answered
  now := 1
  positions := .ok (some [some
    ⟨some "BTCUSDT", some .long, some "1000", true, true, [some (.finite 1)]⟩])
  ticker := .ok [.finite 80]
  fills := .ok (some [])
  ack := .ok (some (some "1"))

/-- The position is flat. -/
def FallbackChoice.flat : FallbackChoice := { FallbackChoice.stopped with positions := .ok (some []) }

/-- Both lanes load the row, and the polling lane closes it, up to its POST. -/
def pollingClosed : List FallbackLabel :=
  ([.start (.poll (some .live)), .start (.stream (some .live) longFallback.id), .act 0 .stopped,
      .act 1 .stopped] : List FallbackLabel) ++
    (List.replicate 6 (.act 0 .stopped) : List FallbackLabel)

theorem long_fallback_posted_once : ∃ t : FallbackState,
    t.trace.countP (fun q => closePosts (fallbackClientOid longFallback.id) q.2) ≠ 0 ∧
      t.trace.countP (fun q => closePosts (fallbackClientOid longFallback.id) q.2) ≤ 1 := by
  have h : (replay fallbackSystem.step (State.init heldWorld) pollingClosed).any
      (fun t => t.trace.countP (fun q => closePosts (fallbackClientOid longFallback.id) q.2) ≠ 0) =
        true := by decide +kernel
  obtain ⟨t, ht, hposted⟩ := (Option.any_eq_true _ _).mp h
  have hrun : Run fallbackSystem.Step (State.init heldWorld) pollingClosed t :=
    run_of_replay (fun _ _ _ h => h) ht
  exact ⟨t, of_decide_eq_true hposted, (fallback_posted_once (Run.nil _) hrun).1 _⟩

/-- The step, where it is no flatness mark, no evidence, and no mark of a row that is done. -/
def forwardStep (s : FallbackState) (l : FallbackLabel) : Option FallbackState :=
  match l with
  | .act n _ =>
    match s.next n with
    | some (_, .markPositionFlat _) => none
    | some (_, .persistCloseFills _ _ _ _) => none
    | some (_, .markClosing id _ _) =>
      if s.world.fallbacks.rows.any fun row => row.id = id &&
          (row.state = .triggered || row.state = .cancelled) then none
      else fallbackSystem.step s l
    | _ => fallbackSystem.step s l
  | _ => fallbackSystem.step s l

theorem guard_of_forwardStep {l : FallbackLabel} (h : forwardStep s l = some t) :
    Guard fallbackSystem.Step TakesNothingBack s l t := by
  unfold forwardStep at h
  refine ⟨?_, ?_⟩
  · rintro n c i o rfl hn hregresses
    simp only [hn] at h
    cases o with
    | markPositionFlat id => cases h
    | persistCloseFills id symbol rows flat => cases h
    | markClosing id clientOid orderId =>
      obtain ⟨row, hrow, hid, hstate⟩ := hregresses
      dsimp only at h
      split at h
      · cases h
      next hnone => exact hnone (List.any_eq_true.mpr ⟨row, hrow, by simpa [hid] using hstate⟩)
    | _ => exact hregresses.elim
  · split at h
    · split at h
      · cases h
      · cases h
      · split at h
        · cases h
        · exact h
      · exact h
    · exact h

theorem long_fallback_moves_forward : ∃ t : FallbackState,
    t.trace.countP (fun q => closePosts (fallbackClientOid longFallback.id) q.2) ≠ 0 ∧
      t.world.TakesFills (fallbackClientOid longFallback.id) := by
  have h : (replay forwardStep (State.init heldWorld) pollingClosed).any
      (fun t => t.trace.countP (fun q => closePosts (fallbackClientOid longFallback.id) q.2) ≠ 0) =
        true := by decide +kernel
  obtain ⟨t, ht, hposted⟩ := (Option.any_eq_true _ _).mp h
  have hposted := of_decide_eq_true hposted
  have hrun : Run (Guard fallbackSystem.Step TakesNothingBack) (State.init heldWorld)
      pollingClosed t := by
    refine run_of_replay ?_ ht
    exact fun s l t h => guard_of_forwardStep h
  exact ⟨t, hposted, (fallback_moves_forward (Run.nil _) hrun).2 _ hposted⟩

/-- The stream loaded the row before the close ; it reads a flat position because of it, and
cancels the row that is closing. -/
theorem flat_cancels_closing :
    ¬ ∀ (w : FallbackWorld) (ls ls' : List FallbackLabel) (s t : FallbackState),
      Run fallbackSystem.Step (State.init w) ls s → Run fallbackSystem.Step s ls' t →
        (∀ row ∈ s.world.fallbacks.rows, ∃ row' ∈ t.world.fallbacks.rows, row'.id = row.id ∧
            row.state.Forward row'.state) ∧
          ∀ oid, t.trace.countP (fun q => closePosts oid q.2) ≠ 0 → t.world.TakesFills oid := by
  have h : (replay fallbackSystem.step (State.init heldWorld) pollingClosed).any
      (fun s => s.world.fallbacks.rows.map FallbackRow.state = [.closing] ∧
        (replay fallbackSystem.step s [.act 1 .flat, .act 1 .flat]).any
          fun t => t.world.fallbacks.rows.map FallbackRow.state = [.cancelled]) = true := by
    decide +kernel
  obtain ⟨s, hs, hp⟩ := (Option.any_eq_true _ _).mp h
  obtain ⟨hclosing, hlater⟩ := of_decide_eq_true hp
  obtain ⟨t, ht, hcancelled⟩ := (Option.any_eq_true _ _).mp hlater
  have hcancelled := of_decide_eq_true hcancelled
  intro hclaim
  obtain ⟨hforward, -⟩ := hclaim heldWorld pollingClosed _ s t (run_of_replay (fun _ _ _ h => h) hs)
    (run_of_replay (fun _ _ _ h => h) ht)
  obtain ⟨row, hrow, hstate⟩ := List.mem_map.mp (hclosing ▸ List.mem_cons_self)
  obtain ⟨row', hrow', -, hfwd⟩ := hforward row hrow
  have hstate' : row'.state ∈ [FallbackStatus.cancelled] :=
    hcancelled ▸ List.mem_map.mpr ⟨row', hrow', rfl⟩
  rw [hstate, List.mem_singleton.mp hstate'] at hfwd
  exact absurd hfwd (by decide)

end FattyTrader
