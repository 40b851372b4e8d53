import FattyTrader.PlacementRuns
import Mathlib.Data.List.Dedup
import Mathlib.Data.List.Nodup
import Mathlib.Data.List.Forall2
import Mathlib.Data.List.ReduceOption

/-!
# The inventory of a recovery

Before a restarted worker may take an entry, `GetOnlyProtectionRecovery` reads what the account
holds. In a pass it confirms the protection of each filled entry (`RecoveryCall`) and remembers
the holdings it has confirmed (`passVerified`). The inventory then compares the open positions with
these holdings and with the positions of the fallback monitor, and the pending orders with the
pending entries of the store.

The inventory has no issue exactly when the two sides agree (`inventory_clean_iff`) : each open
position is one confirmed holding or managed locally, each confirmed holding is one open position,
and the pending orders are the pending entries, one for one. Then every open position has one owner,
whose protection was read in this pass (`open_positions_owned`).
-/

set_option linter.unusedSectionVars false

open FattyTrader.JsonValues FattyTrader.NativeProtection FattyTrader.Placement

namespace FattyTrader.RecoveryInventory

variable (P : Texts)

/-! ## The confirmed holdings -/

/-- What `_verified` remembers of an entry. -/
structure Holding where
  symbol : String
  side : Side
  quantity : ℚ
deriving DecidableEq

/-- A call of the recovery, with the two reads of its confirmation. -/
structure RecoveryCall where
  intent : LiveIntentRecord
  plan : ProtectionPlan
  reads : Read × Read

namespace RecoveryCall

variable (c : RecoveryCall)

/-- The entry has an order and fills of the venue. -/
def fillProof : Bool :=
  c.intent.providerOrderId.any (· ≠ "") && !c.intent.providerFillIds.isEmpty &&
    c.intent.providerFillIds.all fun id => !"status-derived:".toList.isPrefixOf id.toList

def holding : Holding :=
  ⟨c.plan.symbol, if c.plan.direction = .long then .buy else .sell, c.plan.quantity⟩

/-- The expectation is for the quantity of the plan, without the ids of the plans. -/
def expected : Option (NativeProtectionExpectation P) :=
  expectation P { c.intent with filledQty := c.plan.quantity } c.plan none none

/-- `__call__`, as `AsyncProtectionResult`. -/
def verdict : Except String NativeProtection.ProtectionReport :=
  if c.fillProof then
    match c.expected P with
    | none => .error "native protection expectation is invalid"
    | some e =>
      let report := confirmExactNativeProtection e c.reads.1 c.reads.2
      .ok { report with
        reason := if report.reason = some "position-not-open" then
          some "owned-flat-close-fill-unproven" else report.reason }
  else .ok ⟨.degraded, c.intent.filledQty, some "entry-fill-proof-missing"⟩

/-- The call has confirmed the protection. -/
def confirms : Bool :=
  match c.verdict P with
  | .ok report => report.state = .venueProtected
  | .error _ => false

end RecoveryCall

/-- `_verified[client_oid] = holding`. -/
def setVerified (verified : List (String × Holding)) (clientOid : String) (holding : Holding) :
    List (String × Holding) :=
  if verified.any (·.1 = clientOid) then
    verified.map fun v => if v.1 = clientOid then (clientOid, holding) else v
  else verified ++ [(clientOid, holding)]

def recordCall (verified : List (String × Holding)) (c : RecoveryCall) : List (String × Holding) :=
  if c.confirms P then setVerified verified c.intent.clientOid c.holding else verified

/-- What is verified after `begin` and the calls of a pass. -/
def passVerified (calls : List RecoveryCall) : List (String × Holding) :=
  calls.foldl (recordCall P) []

/-! ## Positions -/

/-- An open position of the account. -/
structure OpenPosition where
  symbol : Json
  side : Option Side
  quantity : ℚ

/-- The position has the key of the holding. -/
def OpenPosition.is (o : OpenPosition) (h : Holding) : Bool :=
  o.symbol.isText h.symbol && o.side = some h.side && o.quantity = h.quantity

/-- The side of a text, `none` for every other value but a list or an object, which is no key. -/
def positionSide : Json → Except String (Option Side)
  | .str "long" => .ok (some .buy)
  | .str "short" => .ok (some .sell)
  | .str "buy" => .ok (some .buy)
  | .str "sell" => .ok (some .sell)
  | .arr _ => .error "unhashable type: 'list'"
  | .obj _ => .error "unhashable type: 'dict'"
  | _ => .ok none

/-- A row of the positions, `none` where nothing is open. -/
def readPosition : Json → Except String (Option OpenPosition)
  | .obj row =>
    match P.finite (valueOf row "total") with
    | none => .error "recovery position quantity invalid"
    | some quantity =>
      if quantity < 0 then .error "recovery position quantity invalid"
      else if quantity = 0 then .ok none
      else (positionSide (valueOf row "holdSide")).map fun side =>
        some ⟨valueOf row "symbol", side, quantity⟩
  | _ => .error "recovery position row invalid"

def openPositions : Json → Except String (List OpenPosition)
  | .arr rows => (rows.mapM (readPosition P)).map List.reduceOption
  | _ => .error "recovery account positions invalid"

/-! ## The inventory -/

/-- What the inventory asks the repository. -/
structure Repository where
  /-- `baseline_binding_issues` of an account. -/
  bindingIssues : String → List String
  inventoryIssues : List String
  /-- `locally_managed_position`, false where it raises. -/
  locallyManaged : String → Direction → ℚ → Bool

/-- The reads of the venue. -/
structure InventoryReads where
  identity : Read
  positions : Read
  pending : Read

/-- `_locally_managed_position`. -/
def locallyManagedPosition (repository : Repository) (o : OpenPosition) : Bool :=
  match o.side with
  | none => false
  | some side =>
    let symbol := P.strip (P.textOr o.symbol)
    symbol ≠ "" &&
      repository.locallyManaged symbol (if side = .buy then .long else .short) o.quantity

/-- `userId`, where it is a positive number in ASCII digits. -/
def accountId : Json → Option String
  | .obj identity =>
    match valueOf identity "userId" with
    | .str id =>
      if id ≠ "" && id.toList.all Char.isDigit && id.toList.any (· ≠ '0') then some id else none
    | _ => none
  | _ => none

/-- `verify_account_binding`. -/
def verifyAccountBinding (repository : Repository) (identity : Json) : Except String Unit :=
  match accountId identity with
  | none => .error "recovery authenticated account identity is invalid"
  | some id =>
    if repository.bindingIssues id = [] then .ok ()
    else .error "baseline account/environment binding mismatch"

/-- `v in ("NO", "no", False)`. -/
def isNotReduceOnly (v : Json) : Bool :=
  match v with
  | .str text => text = "NO" || text = "no"
  | .bool b => !b
  | .number _ => P.finite v = some 0
  | _ => false

def sideText (side : Side) : String := if side = .buy then "BUY" else "SELL"

/-- `_matches_pending_entry`. -/
def matchesPendingEntry (intent : LiveIntentRecord) (row : Fields) : Bool :=
  let state := firstOf row ["state", "status"] .null
  intent.role = .entry && intent.orderType = .limit &&
    (match valueOf row "symbol" with
      | .str symbol => P.upper symbol = intent.symbol
      | _ => false) &&
    (match valueOf row "side" with
      | .str side => P.upper side = sideText intent.side
      | _ => false) &&
    (valueOf row "orderType").isText "limit" && isNotReduceOnly P (valueOf row "reduceOnly") &&
    (state.isText "live" || state.isText "partially_filled") && (valueOf row "orderId").truthy &&
    intent.providerOrderId.all (valueOf row "orderId").isText &&
    match P.finite (valueOf row "price"), P.finite (valueOf row "size"),
      P.finite (firstOf row ["baseVolume"] (.number "0")) with
    | some price, some size, some filled =>
      some price = intent.limitPrice && size = intent.requestedQty && 0 ≤ filled && filled ≤ size
    | _, _, _ => false

/-- The pending entries that have the client oid of the row. -/
def candidates (owned : List LiveIntentRecord) (row : Fields) : List LiveIntentRecord :=
  owned.filter fun intent => (valueOf row "clientOid").isText intent.clientOid

/-- The loop over the pending orders, with the entries that are matched. -/
def pendingMatches (owned : List LiveIntentRecord) (matched : List String) :
    List Fields → List String × List String
  | [] => ([], matched)
  | row :: rows =>
    match candidates owned row with
    | [intent] =>
      if matchesPendingEntry P intent row then
        let rest := pendingMatches owned
          (if intent.clientOid ∈ matched then matched else matched ++ [intent.clientOid]) rows
        (if intent.clientOid ∈ matched then "pending-entry-duplicate" :: rest.1 else rest.1, rest.2)
      else
        let rest := pendingMatches owned matched rows
        ("pending-orders-require-reconciliation" :: rest.1, rest.2)
    | _ =>
      let rest := pendingMatches owned matched rows
      ("pending-orders-require-reconciliation" :: rest.1, rest.2)

/-- The issues of the positions. -/
def positionIssues (repository : Repository) (verified : List Holding)
    (observed : List OpenPosition) : List String :=
  (observed.filter fun o =>
      verified.countP o.is ≠ 1 && !locallyManagedPosition P repository o).map
    (fun _ => "provider-position-not-uniquely-owned-and-protected") ++
  (verified.filter fun h => observed.countP (·.is h) ≠ 1).map
    fun _ => "owned-position-inventory-mismatch"

/-- `tuple(sorted(set(issues)))`. -/
def sortedSet (issues : List String) : List String := issues.dedup.mergeSort fun a b => a ≤ b

/-- `inventory`. -/
def inventory (repository : Repository) (verified : List (String × Holding))
    (owned : List LiveIntentRecord) (reads : InventoryReads) : Except String (List String) := do
  verifyAccountBinding repository (← reads.identity)
  let observed ← openPositions P (← reads.positions)
  match planRows (← reads.pending) with
  | none => .error "recovery pending inventory invalid"
  | some rows =>
    let matched := pendingMatches P owned [] rows
    .ok (sortedSet (repository.inventoryIssues ++
      positionIssues P repository (verified.map Prod.snd) observed ++ matched.1 ++
      if owned.any fun intent => intent.clientOid ∉ matched.2 then
        ["owned-pending-entry-inventory-mismatch"] else []))

/-! ## The pending orders -/

section Pending

variable {P} {owned : List LiveIntentRecord} {row : Fields} {rows : List Fields}
  {intent : LiveIntentRecord}

variable (P owned) in
/-- The row is the order of the entry, and of no other. -/
def Answers (row : Fields) (intent : LiveIntentRecord) : Prop :=
  candidates owned row = [intent] ∧ matchesPendingEntry P intent row = true

variable (P) in
/-- The row is the order of the entry. -/
def IsOrderOf (row : Fields) (intent : LiveIntentRecord) : Prop :=
  (valueOf row "clientOid").isText intent.clientOid = true ∧
    matchesPendingEntry P intent row = true

theorem exists_of_forall₂ {R : Fields → LiveIntentRecord → Prop} {intents : List LiveIntentRecord}
    (h : List.Forall₂ R rows intents) (hmem : intent ∈ intents) : ∃ row ∈ rows, R row intent := by
  induction h with
  | nil => cases hmem
  | cons hR _ ih =>
    rcases List.mem_cons.mp hmem with rfl | hmem
    · exact ⟨_, List.mem_cons_self, hR⟩
    · obtain ⟨row, hrow, hR⟩ := ih hmem
      exact ⟨row, List.mem_cons_of_mem _ hrow, hR⟩

theorem forall₂_imp_of_mem {R S : Fields → LiveIntentRecord → Prop}
    {intents : List LiveIntentRecord} (h : List.Forall₂ R rows intents)
    (hRS : ∀ row, ∀ i ∈ intents, R row i → S row i) : List.Forall₂ S rows intents := by
  induction h with
  | nil => exact .nil
  | cons hR _ ih =>
    exact .cons (hRS _ _ List.mem_cons_self hR)
      (ih fun row i hi => hRS row i (List.mem_cons_of_mem _ hi))

theorem eq_of_clientOid (hids : (owned.map (·.clientOid)).Nodup) {i j : LiveIntentRecord}
    (hi : i ∈ owned) (hj : j ∈ owned) (h : i.clientOid = j.clientOid) : i = j :=
  List.inj_on_of_nodup_map hids hi hj h

theorem candidates_eq_singleton (hids : (owned.map (·.clientOid)).Nodup) :
    candidates owned row = [intent] ↔
      intent ∈ owned ∧ (valueOf row "clientOid").isText intent.clientOid = true := by
  constructor
  · intro h
    exact List.mem_filter.mp (h ▸ List.mem_singleton_self intent : intent ∈ candidates owned row)
  · rintro ⟨hmem, htext⟩
    refine List.perm_singleton.mp ((List.perm_ext_iff_of_nodup
      (hids.of_map.filter _) (List.nodup_singleton intent)).mpr fun i => ?_)
    rw [List.mem_singleton, List.mem_filter]
    constructor
    · rintro ⟨hi, hitext⟩
      have htexts := (Json.isText_iff.mp hitext).symm.trans (Json.isText_iff.mp htext)
      exact eq_of_clientOid hids hi hmem (Json.str.inj htexts)
    · rintro rfl
      exact ⟨hmem, htext⟩

/-- The loop finds no issue exactly when the rows are orders of different entries, none of which is
matched before. -/
theorem pendingMatches_clean {matched final : List String} :
    pendingMatches P owned matched rows = ([], final) ↔
      ∃ intents, List.Forall₂ (Answers P owned) rows intents ∧
        (intents.map (·.clientOid)).Nodup ∧ (∀ i ∈ intents, i.clientOid ∉ matched) ∧
        final = matched ++ intents.map (·.clientOid) := by
  induction rows generalizing matched with
  | nil => simp [pendingMatches, eq_comm]
  | cons row rows ih =>
    rw [pendingMatches]
    have hother : (∀ intent, ¬ Answers P owned row intent) → ¬ ∃ intents,
        List.Forall₂ (Answers P owned) (row :: rows) intents ∧
          (intents.map (·.clientOid)).Nodup ∧ (∀ i ∈ intents, i.clientOid ∉ matched) ∧
          final = matched ++ intents.map (·.clientOid) := by
      rintro hnone ⟨intents, hrows, -⟩
      obtain ⟨intent, -, hanswers, -, -⟩ := List.forall₂_cons_left_iff.mp hrows
      exact hnone intent hanswers
    split
    next intent hcandidates =>
      split
      next hmatches =>
        by_cases hin : intent.clientOid ∈ matched
        · -- a second order of an entry
          dsimp only
          rw [if_pos hin, if_pos hin]
          refine iff_of_false (fun h => by cases (Prod.mk.inj h).1) ?_
          rintro ⟨intents, hrows, -, hnew, -⟩
          obtain ⟨intent', rest, hanswers, -, rfl⟩ := List.forall₂_cons_left_iff.mp hrows
          obtain rfl := (List.cons.inj (hcandidates.symm.trans hanswers.1)).1
          exact hnew intent (by simp) hin
        · dsimp only
          rw [if_neg hin, if_neg hin, Prod.mk.eta, ih]
          constructor
          · rintro ⟨intents, hrows, hnodup, hnew, rfl⟩
            refine ⟨intent :: intents, .cons ⟨hcandidates, hmatches⟩ hrows, ?_, ?_, by simp⟩
            · refine List.nodup_cons.mpr ⟨fun hmem => ?_, hnodup⟩
              obtain ⟨i, hi, hoid⟩ := List.mem_map.mp hmem
              exact hnew i hi (by simp [hoid])
            · intro i hi hmem
              rcases List.mem_cons.mp hi with rfl | hi
              · exact hin hmem
              · exact hnew i hi (List.mem_append_left _ hmem)
          · rintro ⟨intents, hrows, hnodup, hnew, rfl⟩
            obtain ⟨intent', rest, hanswers, hrest, rfl⟩ := List.forall₂_cons_left_iff.mp hrows
            obtain rfl := (List.cons.inj (hcandidates.symm.trans hanswers.1)).1
            obtain ⟨hhead, hnodup⟩ := List.nodup_cons.mp hnodup
            refine ⟨rest, hrest, hnodup, fun i hi hmem => ?_, by simp⟩
            rcases List.mem_append.mp hmem with hmem | hmem
            · exact hnew i (List.mem_cons_of_mem _ hi) hmem
            · exact hhead (List.mem_map.mpr ⟨i, hi, List.mem_singleton.mp hmem⟩)
      next hmatches =>
        refine iff_of_false (fun h => by cases (Prod.mk.inj h).1) (hother fun i hanswers => ?_)
        obtain rfl := (List.cons.inj (hcandidates.symm.trans hanswers.1)).1
        exact hmatches hanswers.2
    next hcandidates =>
      refine iff_of_false (fun h => by cases (Prod.mk.inj h).1) (hother fun i hanswers => ?_)
      exact hcandidates i hanswers.1

/-- No issue of the pending orders is found exactly when they are, in some order, the pending
entries. -/
theorem pending_clean_iff (hids : (owned.map (·.clientOid)).Nodup) :
    (pendingMatches P owned [] rows).1 = [] ∧
        (∀ intent ∈ owned, intent.clientOid ∈ (pendingMatches P owned [] rows).2) ↔
      ∃ intents, intents.Perm owned ∧ List.Forall₂ (IsOrderOf P) rows intents := by
  constructor
  · rintro ⟨hclean, hall⟩
    have hloop : pendingMatches P owned [] rows = ([], (pendingMatches P owned [] rows).2) :=
      Prod.ext hclean rfl
    obtain ⟨intents, hrows, hnodup, -, hfinal⟩ := pendingMatches_clean.mp hloop
    have hsub : ∀ i ∈ intents, i ∈ owned := by
      intro i hi
      obtain ⟨row, -, hanswers⟩ := exists_of_forall₂ hrows hi
      exact ((candidates_eq_singleton hids).mp hanswers.1).1
    refine ⟨intents, (List.perm_ext_iff_of_nodup hnodup.of_map hids.of_map).mpr fun i =>
      ⟨hsub i, fun hi => ?_⟩, hrows.imp fun row i hanswers => ?_⟩
    · have hi' := hall i hi
      rw [hfinal, List.nil_append] at hi'
      obtain ⟨j, hj, hoid⟩ := List.mem_map.mp hi'
      exact eq_of_clientOid hids (hsub j hj) hi hoid ▸ hj
    · exact ⟨((candidates_eq_singleton hids).mp hanswers.1).2, hanswers.2⟩
  · rintro ⟨intents, hperm, hrows⟩
    have hanswers : List.Forall₂ (Answers P owned) rows intents :=
      forall₂_imp_of_mem hrows fun row i hi horder =>
        ⟨(candidates_eq_singleton hids).mpr ⟨hperm.mem_iff.mp hi, horder.1⟩, horder.2⟩
    have hnodup : (intents.map (·.clientOid)).Nodup := (hperm.map _).nodup_iff.mpr hids
    have hclean := pendingMatches_clean.mpr
      ⟨intents, hanswers, hnodup, fun _ _ => List.not_mem_nil, rfl⟩
    rw [hclean]
    exact ⟨rfl, fun i hi => List.mem_map.mpr ⟨i, hperm.mem_iff.mpr hi, rfl⟩⟩

end Pending

/-! ## A clean inventory -/

section Clean

variable {P} {repository : Repository} {verified : List (String × Holding)}
  {owned : List LiveIntentRecord} {reads : InventoryReads}

theorem sortedSet_eq_nil {issues : List String} : sortedSet issues = [] ↔ issues = [] := by
  rw [sortedSet, ← List.length_eq_zero_iff, List.length_mergeSort, List.length_eq_zero_iff,
    List.dedup_eq_nil]

theorem positionIssues_eq_nil {holdings : List Holding} {observed : List OpenPosition} :
    positionIssues P repository holdings observed = [] ↔
      (∀ o ∈ observed, holdings.countP o.is = 1 ∨
        locallyManagedPosition P repository o = true) ∧
      ∀ h ∈ holdings, observed.countP (·.is h) = 1 := by
  rw [positionIssues, List.append_eq_nil_iff, List.map_eq_nil_iff, List.map_eq_nil_iff,
    List.filter_eq_nil_iff, List.filter_eq_nil_iff]
  simp only [Bool.and_eq_true, decide_eq_true_eq, Bool.not_eq_true', not_and,
    Bool.not_eq_false, ne_eq, not_not]
  refine and_congr_left' (forall₂_congr fun o _ => ?_)
  exact Decidable.or_iff_not_imp_left.symm

variable (P) in
/-- The venue and the store agree. -/
structure Agrees (repository : Repository) (verified : List (String × Holding))
    (owned : List LiveIntentRecord) (reads : InventoryReads) : Prop where
  /-- The baselines are of the account that is read. -/
  account : ∃ identity id, reads.identity = .ok identity ∧ accountId identity = some id ∧
    repository.bindingIssues id = []
  durable : repository.inventoryIssues = []
  /-- Each open position is one confirmed holding, or managed locally, and each confirmed holding
  is one open position. -/
  positions : ∃ raw observed, reads.positions = .ok raw ∧ openPositions P raw = .ok observed ∧
    (∀ o ∈ observed, (verified.map Prod.snd).countP o.is = 1 ∨
      locallyManagedPosition P repository o = true) ∧
    ∀ h ∈ verified.map Prod.snd, observed.countP (·.is h) = 1
  /-- The pending orders are the pending entries, one for one. -/
  pending : ∃ raw rows intents, reads.pending = .ok raw ∧ planRows raw = some rows ∧
    intents.Perm owned ∧ List.Forall₂ (IsOrderOf P) rows intents

theorem verifyAccountBinding_ok {identity : Json} :
    verifyAccountBinding repository identity = .ok () ↔
      ∃ id, accountId identity = some id ∧ repository.bindingIssues id = [] := by
  unfold verifyAccountBinding
  split
  next h => simp [h]
  next id h =>
    split
    next hbinding => simp [h, hbinding]
    next hbinding => simp [h, hbinding]

/-- The issues of an inventory whose reads can be read. -/
theorem inventory_ok {issues : List String} :
    inventory P repository verified owned reads = .ok issues ↔
      ∃ identity raw observed rawPending rows, reads.identity = .ok identity ∧
        verifyAccountBinding repository identity = .ok () ∧ reads.positions = .ok raw ∧
        openPositions P raw = .ok observed ∧ reads.pending = .ok rawPending ∧
        planRows rawPending = some rows ∧
        issues = sortedSet (repository.inventoryIssues ++
          positionIssues P repository (verified.map Prod.snd) observed ++
          (pendingMatches P owned [] rows).1 ++
          if owned.any fun intent => intent.clientOid ∉ (pendingMatches P owned [] rows).2 then
            ["owned-pending-entry-inventory-mismatch"] else []) := by
  constructor
  · intro h
    obtain ⟨identity, hidentity, h⟩ := exists_of_bind_ok h
    obtain ⟨_, hbinding, h⟩ := exists_of_bind_ok h
    obtain ⟨raw, hraw, h⟩ := exists_of_bind_ok h
    obtain ⟨observed, hobserved, h⟩ := exists_of_bind_ok h
    obtain ⟨rawPending, hpending, h⟩ := exists_of_bind_ok h
    split at h
    · cases h
    next rows hrows =>
      exact ⟨identity, raw, observed, rawPending, rows, hidentity, hbinding, hraw, hobserved,
        hpending, hrows, (Except.ok.inj h).symm⟩
  · rintro ⟨identity, raw, observed, rawPending, rows, hidentity, hbinding, hraw, hobserved,
      hpending, hrows, rfl⟩
    unfold inventory
    rw [hidentity, hraw, hpending]
    simp only [Bind.bind, Except.bind, hbinding, hobserved, hrows]

/-- The inventory has no issue exactly when the venue and the store agree. -/
theorem inventory_clean_iff (hids : (owned.map (·.clientOid)).Nodup) :
    inventory P repository verified owned reads = .ok [] ↔
      Agrees P repository verified owned reads := by
  have hmissing : ∀ {matched : List String}, (if owned.any fun i => i.clientOid ∉ matched then
      ["owned-pending-entry-inventory-mismatch"] else []) = [] ↔
      ∀ i ∈ owned, i.clientOid ∈ matched := by
    intro matched
    simp
  rw [inventory_ok]
  constructor
  · rintro ⟨identity, raw, observed, rawPending, rows, hidentity, hbinding, hraw, hobserved,
      hpending, hrows, hissues⟩
    have hnil := sortedSet_eq_nil.mp hissues.symm
    simp only [List.append_eq_nil_iff, and_assoc] at hnil
    obtain ⟨hdurable, hpositions, hmatched, hall⟩ := hnil
    obtain ⟨id, hid, hbound⟩ := verifyAccountBinding_ok.mp hbinding
    obtain ⟨intents, hperm, horders⟩ :=
      (pending_clean_iff hids).mp ⟨hmatched, hmissing.mp hall⟩
    exact
      { account := ⟨identity, id, hidentity, hid, hbound⟩
        durable := hdurable
        positions := ⟨raw, observed, hraw, hobserved, positionIssues_eq_nil.mp hpositions⟩
        pending := ⟨rawPending, rows, intents, hpending, hrows, hperm, horders⟩ }
  · rintro ⟨⟨identity, id, hidentity, hid, hbound⟩, hdurable,
      ⟨raw, observed, hraw, hobserved, hpositions⟩,
      ⟨rawPending, rows, intents, hpending, hrows, hperm, horders⟩⟩
    obtain ⟨hmatched, hall⟩ := (pending_clean_iff hids).mpr ⟨intents, hperm, horders⟩
    refine ⟨identity, raw, observed, rawPending, rows, hidentity,
      verifyAccountBinding_ok.mpr ⟨id, hid, hbound⟩, hraw, hobserved, hpending, hrows, ?_⟩
    rw [hdurable, positionIssues_eq_nil.mpr hpositions, hmatched, hmissing.mpr hall]
    exact (sortedSet_eq_nil.mpr rfl).symm

end Clean

/-! ## The owners of the open positions -/

section Owners

variable {P} {calls : List RecoveryCall} {v v' : String × Holding}

/-- The new value is one of the old ones, or the one that is set. -/
theorem mem_setVerified {verified : List (String × Holding)} {clientOid : String}
    {holding : Holding} (h : v ∈ setVerified verified clientOid holding) :
    v ∈ verified ∨ v = (clientOid, holding) := by
  unfold setVerified at h
  split at h
  · obtain ⟨u, hu, rfl⟩ := List.mem_map.mp h
    split
    · exact Or.inr rfl
    · exact Or.inl hu
  · rcases List.mem_append.mp h with h | h
    · exact Or.inl h
    · exact Or.inr (List.mem_singleton.mp h)

theorem nodup_setVerified {verified : List (String × Holding)}
    (h : (verified.map Prod.fst).Nodup) (clientOid : String) (holding : Holding) :
    ((setVerified verified clientOid holding).map Prod.fst).Nodup := by
  unfold setVerified
  split
  · rw [List.map_map]
    refine (List.map_congr_left fun v _ => ?_).symm ▸ h
    by_cases hv : v.1 = clientOid <;> simp [hv]
  next hnew =>
    rw [List.map_append, List.nodup_append]
    refine ⟨h, List.nodup_singleton _, fun a ha b hb hab => hnew ?_⟩
    obtain ⟨u, hu, rfl⟩ := List.mem_map.mp ha
    rw [List.map_singleton, List.mem_singleton] at hb
    exact List.any_eq_true.mpr ⟨u, hu, by simp [hab, hb]⟩

/-- A pass remembers only what one of its calls has confirmed, once for each entry. -/
theorem recordCalls {verified : List (String × Holding)} (h : (verified.map Prod.fst).Nodup) :
    ((calls.foldl (recordCall P) verified).map Prod.fst).Nodup ∧
      ∀ v ∈ calls.foldl (recordCall P) verified, v ∈ verified ∨
        ∃ c ∈ calls, c.confirms P = true ∧ v = (c.intent.clientOid, c.holding) := by
  induction calls generalizing verified with
  | nil => exact ⟨h, fun v hv => Or.inl hv⟩
  | cons c calls ih =>
    have hnext : ((recordCall P verified c).map Prod.fst).Nodup ∧
        ∀ v ∈ recordCall P verified c, v ∈ verified ∨
          c.confirms P = true ∧ v = (c.intent.clientOid, c.holding) := by
      unfold recordCall
      split
      next hconfirms =>
        exact ⟨nodup_setVerified h _ _, fun v hv =>
          (mem_setVerified hv).imp_right fun hv => ⟨hconfirms, hv⟩⟩
      · exact ⟨h, fun v hv => Or.inl hv⟩
    obtain ⟨hnodup, hmem⟩ := ih hnext.1
    refine ⟨hnodup, fun v hv => ?_⟩
    rcases hmem v hv with hold | ⟨c', hc', hconfirms, rfl⟩
    · rcases hnext.2 v hold with hold | ⟨hconfirms, rfl⟩
      · exact Or.inl hold
      · exact Or.inr ⟨c, List.mem_cons_self, hconfirms, rfl⟩
    · exact Or.inr ⟨c', List.mem_cons_of_mem _ hc', hconfirms, rfl⟩

theorem verified_of_pass (h : v ∈ passVerified P calls) :
    ∃ c ∈ calls, c.confirms P = true ∧ v = (c.intent.clientOid, c.holding) := by
  have hnone : (([] : List (String × Holding)).map Prod.fst).Nodup := List.nodup_nil
  rcases (recordCalls hnone).2 v h with h | h
  · cases h
  · exact h

/-- What occurs once has one owner. -/
theorem eq_of_countP_one {α : Type} {p : α → Bool} {as : List α} (h : as.countP p = 1) {a b : α}
    (ha : a ∈ as) (hpa : p a = true) (hb : b ∈ as) (hpb : p b = true) : a = b := by
  rw [List.countP_eq_length_filter] at h
  obtain ⟨c, hc⟩ := List.length_eq_one_iff.mp h
  have hin : ∀ {x}, x ∈ as → p x = true → x = c := fun hx hpx =>
    List.mem_singleton.mp (hc ▸ List.mem_filter.mpr ⟨hx, hpx⟩)
  exact (hin ha hpa).trans (hin hb hpb).symm

theorem mem_of_mapM {α β ε : Type} {f : α → Except ε β} {as : List α} {bs : List β}
    (h : as.mapM f = .ok bs) {a : α} (ha : a ∈ as) : ∃ b ∈ bs, f a = .ok b := by
  induction as generalizing bs with
  | nil => cases ha
  | cons a' as ih =>
    rw [List.mapM_cons] at h
    obtain ⟨b', hb', h⟩ := exists_of_bind_ok h
    obtain ⟨bs', hbs', h⟩ := exists_of_bind_ok h
    obtain rfl := Except.ok.inj h
    rcases List.mem_cons.mp ha with rfl | ha
    · exact ⟨b', List.mem_cons_self, hb'⟩
    · obtain ⟨b, hb, hf⟩ := ih hbs' ha
      exact ⟨b, List.mem_cons_of_mem _ hb, hf⟩

/-- A row that can be read. -/
theorem readPosition_ok {row : Json} {o : Option OpenPosition} (h : readPosition P row = .ok o) :
    ∃ fields total, row = .obj fields ∧ P.finite (valueOf fields "total") = some total ∧
      (o = none ∧ total = 0 ∨ ∃ position, o = some position ∧ 0 < total ∧
        position.quantity = total ∧ position.symbol = valueOf fields "symbol") := by
  unfold readPosition at h
  split at h
  next fields =>
    split at h
    · cases h
    next total htotal =>
      split at h
      · cases h
      next hnonneg =>
        split at h
        next hzero =>
          obtain rfl := Except.ok.inj h
          exact ⟨fields, total, rfl, htotal, Or.inl ⟨rfl, hzero⟩⟩
        next hne =>
          obtain ⟨side, -, rfl⟩ := exists_of_map_ok h
          exact ⟨fields, total, rfl, htotal, Or.inr ⟨_, rfl,
            lt_of_le_of_ne (not_lt.mp hnonneg) (Ne.symm hne), rfl, rfl⟩⟩
  · cases h

/-- After a pass with a clean inventory, an open position is managed locally, or is the holding of
one entry, whose protection the pass has read as it was ordered. -/
theorem open_positions_owned {repository : Repository} {owned : List LiveIntentRecord}
    {reads : InventoryReads}
    (hclean : inventory P repository (passVerified P calls) owned reads = .ok [])
    {rows : List Json} (hread : reads.positions = .ok (.arr rows)) {row : Json}
    (hrow : row ∈ rows) :
    ∃ fields total, row = .obj fields ∧ P.finite (valueOf fields "total") = some total ∧
      (total = 0 ∨ ∃ o, readPosition P row = .ok (some o) ∧ 0 < total ∧ o.quantity = total ∧
        (locallyManagedPosition P repository o = true ∨
          ∃ c ∈ calls, c.confirms P = true ∧ o.is c.holding = true ∧
            ∀ v ∈ passVerified P calls, o.is v.2 = true → v.1 = c.intent.clientOid)) := by
  obtain ⟨identity, raw, observed, rawPending, pending, -, -, hraw, hobserved, -, -, hissues⟩ :=
    inventory_ok.mp hclean
  have hnil := sortedSet_eq_nil.mp hissues.symm
  simp only [List.append_eq_nil_iff, and_assoc] at hnil
  obtain ⟨hpositions, -⟩ := positionIssues_eq_nil.mp hnil.2.1
  obtain rfl := Except.ok.inj (hraw.symm.trans hread)
  obtain ⟨all, hall, rfl⟩ := exists_of_map_ok hobserved
  obtain ⟨o, ho, hposition⟩ := mem_of_mapM hall hrow
  obtain ⟨fields, total, rfl, htotal, hopen⟩ := readPosition_ok hposition
  refine ⟨fields, total, rfl, htotal, ?_⟩
  rcases hopen with ⟨-, hzero⟩ | ⟨position, rfl, hpos, hquantity, -⟩
  · exact Or.inl hzero
  refine Or.inr ⟨position, hposition, hpos, hquantity, ?_⟩
  rcases hpositions position (List.reduceOption_mem_iff.mpr ho) with hone | hmanaged
  · rw [List.countP_map] at hone
    obtain ⟨v, hv, his⟩ := List.countP_pos_iff.mp (Nat.lt_of_lt_of_eq Nat.one_pos hone.symm)
    obtain ⟨c, hc, hconfirms, rfl⟩ := verified_of_pass hv
    refine Or.inr ⟨c, hc, hconfirms, his, fun v' hv' his' => ?_⟩
    exact congrArg Prod.fst (eq_of_countP_one hone hv' his' hv his)
  · exact Or.inl hmanaged

end Owners

/-! ## An account -/

/-- A filled entry whose stop the venue shows. -/
def heldCall : RecoveryCall where
  intent := { containedEntry with providerOrderId := some "7", providerFillIds := ["9"] }
  plan := containedPlan
  reads := (.ok oneWayPosition, .ok (.arr [ownPlan "pos_loss" "root-sl" "90" ""]))

/-- A limit entry that waits. -/
def pendingEntry : LiveIntentRecord where
  clientOid := "child"
  symbol := "BTCUSDT"
  side := .buy
  orderType := .limit
  limitPrice := some 95
  requestedQty := 2

/-- The order of that entry at the venue. -/
def pendingOrder : Json :=
  .obj [("clientOid", .str "child"), ("symbol", .str "BTCUSDT"), ("side", .str "buy"),
    ("orderType", .str "limit"), ("reduceOnly", .str "NO"), ("state", .str "live"),
    ("orderId", .str "8"), ("price", .number "95"), ("size", .number "2")]

def accountRepository : Repository := ⟨fun _ => [], [], fun _ _ _ => false⟩

def accountReads : InventoryReads where
  identity := .ok (.obj [("userId", .str "42")])
  positions := .ok oneWayPosition
  pending := .ok (.arr [pendingOrder])

theorem account_clean :
    inventory ascii accountRepository (passVerified ascii [heldCall]) [pendingEntry]
      accountReads = .ok [] := by
  decide +kernel

theorem account_agrees : Agrees ascii accountRepository (passVerified ascii [heldCall])
    [pendingEntry] accountReads :=
  (inventory_clean_iff (by decide)).mp account_clean

theorem held_position_owned : ∃ fields total, oneWayPosition = .arr [.obj fields] ∧
    ascii.finite (valueOf fields "total") = some total ∧ (total = 0 ∨
      ∃ o, readPosition ascii (.obj fields) = .ok (some o) ∧ 0 < total ∧ o.quantity = total ∧
        (locallyManagedPosition ascii accountRepository o = true ∨
          ∃ c ∈ [heldCall], c.confirms ascii = true ∧ o.is c.holding = true ∧
            ∀ v ∈ passVerified ascii [heldCall], o.is v.2 = true → v.1 = c.intent.clientOid)) := by
  obtain ⟨fields, total, hrow, howned⟩ :=
    open_positions_owned account_clean rfl (List.mem_singleton_self _)
  exact ⟨fields, total, congrArg (fun row => Json.arr [row]) hrow, hrow ▸ howned⟩

end FattyTrader.RecoveryInventory
