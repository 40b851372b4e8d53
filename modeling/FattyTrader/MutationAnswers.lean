import FattyTrader.VenueClient

/-!
# How a mutation ends

A mutation sends one POST at most, and `MutationSettled` says how it must end : as refused only
where the venue refused it in so many words, and as of unknown result wherever a POST was sent and
neither refused nor acknowledged. Three methods check the data of an acknowledgement with an error
of another class, and what the client does not catch passes through all of them ; anything else ends
as it must (`mutation_settled_iff`).
-/

set_option linter.unusedSectionVars false

namespace FattyTrader

/-! ## Answers -/

/-- An error envelope of the venue, whose code says that the request was refused. -/
def Transport.Refuses (d : Transport) : Prop :=
  ∃ status envelope code, d = .response status (.json envelope) ∧
    RestClient.envelopeCode envelope = some code ∧ code ≠ "00000" ∧ code ∉ unknownMutationCodes

/-- An envelope that reports success, with its data. -/
def Transport.Succeeds (d : Transport) (data : Json) : Prop :=
  ∃ status fields, d = .response status (.json (.obj fields)) ∧ status < 400 ∧
    RestClient.envelopeCode (.obj fields) = some "00000" ∧
    data = (fields.lookup "data").getD .null

/-- An exception the client does not catch, after the request was sent. -/
def Transport.Escapes (d : Transport) : Prop :=
  d = .raised true ∨ ∃ status, d = .response status .tooDeep ∧ status < 500

/-- The error says that nothing happened at the venue. -/
def ClientError.definite : ClientError → Bool
  | unknownResult _ => false
  | _ => true

inductive Mutation
  | placeEntryOrder (a : EntryOrderArgs)
  | placeMarketClose (a : MarketCloseArgs)
  | placePositionTpsl (a : PositionTpsl)
  | modifyPositionStopLoss (symbol orderId clientOid triggerPrice : String)
  | cancelOrder (symbol orderId productType marginCoin : String)
  | cancelEntryOrder (symbol clientOid : String)
  | cancelAllOrders (symbol : Option String) (productType marginCoin : String)

namespace Mutation

variable (x : RestClient) (t : ℕ → Transport)

def run : Mutation → CallResult
  | placeEntryOrder a => x.placeEntryOrder t a
  | placeMarketClose a => x.placeMarketClose t a
  | placePositionTpsl a => x.placePositionTpsl t a
  | modifyPositionStopLoss symbol orderId clientOid triggerPrice =>
    x.modifyPositionStopLoss t symbol orderId clientOid triggerPrice
  | cancelOrder symbol orderId productType marginCoin =>
    x.cancelOrder t symbol orderId productType marginCoin
  | cancelEntryOrder symbol clientOid => x.cancelEntryOrder t symbol clientOid
  | cancelAllOrders symbol productType marginCoin =>
    x.cancelAllOrders t symbol productType marginCoin

def path : Mutation → String
  | placeEntryOrder _ | placeMarketClose _ => "/api/v2/mix/order/place-order"
  | placePositionTpsl _ => "/api/v2/mix/order/place-pos-tpsl"
  | modifyPositionStopLoss _ _ _ _ => "/api/v2/mix/order/modify-tpsl-order"
  | cancelOrder _ _ _ _ | cancelEntryOrder _ _ => "/api/v2/mix/order/cancel-order"
  | cancelAllOrders _ _ _ => "/api/v2/mix/order/cancel-all-orders"

/-- The check of the arguments. -/
def arguments : Mutation → Except ClientError Payload
  | placeEntryOrder a => entryPayload a
  | placeMarketClose a => closePayload a
  | placePositionTpsl a => x.buildPositionTpslPayload a
  | modifyPositionStopLoss symbol orderId clientOid triggerPrice =>
    modifyPayload symbol orderId clientOid triggerPrice
  | cancelOrder symbol orderId productType marginCoin =>
    cancelPayload "Bitget order id is required" symbol "orderId" orderId productType marginCoin
  | cancelEntryOrder symbol clientOid =>
    cancelPayload "Bitget entry client OID is required" symbol "clientOid" clientOid
      "USDT-FUTURES" "USDT"
  | cancelAllOrders symbol productType marginCoin =>
    .ok (cancelAllPayload symbol productType marginCoin)

/-- The shape an acknowledgement of the method has. -/
def shaped : Mutation → Json → Bool
  | placePositionTpsl _ => Json.isRows
  | _ => Json.isObject

/-- The methods whose check of the data raises another error than `unknownResult`. -/
def misreports : Mutation → Bool
  | placePositionTpsl _ | cancelOrder _ _ _ _ | cancelAllOrders _ _ _ => true
  | _ => false

/-- The data is not what the method expects, and the method takes it for a refusal. -/
def Misshapen (m : Mutation) (d : Transport) : Prop :=
  m.misreports = true ∧ ∃ data, d.Succeeds data ∧ m.shaped data = false

/-- A mutation ends as it must : one POST at most ; a definite error after it only where the venue
refused ; and any other answer than a refusal or a success of the right shape as unknown. -/
structure Settled (m : Mutation) (d : Transport) (r : CallResult) : Prop where
  once : r.requests.length ≤ 1
  refused : ∀ e, r.outcome = .error e → r.requests ≠ [] → e.definite = true → d.Refuses
  unknown : r.requests ≠ [] → ¬ d.Refuses → (¬ ∃ data, d.Succeeds data ∧ m.shaped data = true) →
    ∃ e, r.outcome = .error (.unknownResult e)

end Mutation

/-! ## One POST -/

namespace Transport

variable {d : Transport} {data data' : Json}

theorem Refuses.not_succeeds (h : d.Refuses) : ¬ d.Succeeds data := by
  rintro ⟨status, fields, rfl, -, hcode, -⟩
  obtain ⟨status', envelope, code, heq, hcode', hne, -⟩ := h
  obtain ⟨-, hbody⟩ := Transport.response.inj heq
  obtain rfl := ResponseBody.json.inj hbody
  rw [hcode] at hcode'
  exact hne (Option.some.inj hcode').symm

theorem Escapes.not_refuses (h : d.Escapes) : ¬ d.Refuses := by
  rintro ⟨status, envelope, code, rfl, -⟩
  rcases h with h | ⟨status', h, -⟩
  · cases h
  · cases (Transport.response.inj h).2

theorem Escapes.not_succeeds (h : d.Escapes) : ¬ d.Succeeds data := by
  rintro ⟨status, fields, rfl, -⟩
  rcases h with h | ⟨status', h, -⟩
  · cases h
  · cases (Transport.response.inj h).2

/-- The data of a success is determined. -/
theorem Succeeds.unique (h : d.Succeeds data)
    (h' : d.Succeeds data') : data = data' := by
  obtain ⟨status, fields, rfl, -, -, rfl⟩ := h
  obtain ⟨status', fields', heq, -, -, rfl⟩ := h'
  obtain ⟨-, hbody⟩ := Transport.response.inj heq
  obtain rfl := Json.obj.inj (ResponseBody.json.inj hbody)
  rfl

end Transport

namespace RestClient

variable {x : RestClient} {t : ℕ → Transport} {path : String} {status : ℕ} {body : ResponseBody}

/-- A status from 400 on is an escaped exception, an unknown result, or a refusal. -/
theorem errorStatus_post (x : RestClient) (path : String) (status : ℕ) (body : ResponseBody) :
    (x.errorStatus .post path status body = .escaped ∧ body = .tooDeep) ∨
    (∃ e, x.errorStatus .post path status body = .unknownResult e) ∨
    ∃ e, x.errorStatus .post path status body = .api e ∧
      (Transport.response status body).Refuses := by
  unfold errorStatus
  dsimp only
  split
  · exact Or.inl ⟨rfl, rfl⟩
  next fields =>
    split
    · exact Or.inr (Or.inl ⟨_, rfl⟩)
    next htrusted =>
      obtain ⟨code, hcode, hne⟩ : ∃ code, envelopeCode (.obj fields) = some code ∧
          code ≠ "00000" := by
        cases hcode : envelopeCode (.obj fields) with
        | none => simp [hcode] at htrusted
        | some code => exact ⟨code, rfl, by simpa [hcode] using htrusted⟩
      -- the code of the message is the code of the envelope
      have htext : x.fieldText fields "code" = code ∧ code ≠ "" := by
        simp only [envelopeCode, Option.filter_eq_some_iff, Option.bind_eq_some_iff,
          decide_eq_true_eq] at hcode
        obtain ⟨⟨v, hv, htext⟩, hempty⟩ := hcode
        cases v <;> simp_all [Json.text, fieldText]
      split
      · exact Or.inr (Or.inl ⟨_, rfl⟩)
      next hknown =>
        refine Or.inr (Or.inr ⟨_, if_pos (Or.inl (htext.1 ▸ htext.2)), status, _, code, rfl, hcode,
          hne, fun hmem => hknown ⟨rfl, htext.1 ▸ hmem⟩⟩)
  · exact Or.inr (Or.inl ⟨_, rfl⟩)

/-- A status below 400 is an escaped exception, an unknown result, a refusal, or a success. -/
theorem acknowledged_post (x : RestClient) (path : String) (body : ResponseBody)
    (hstatus : status < 400) :
    (x.acknowledged .post path status body = .error .escaped ∧ body = .tooDeep) ∨
    (∃ e, x.acknowledged .post path status body = .error (.unknownResult e)) ∨
    (∃ e, x.acknowledged .post path status body = .error (.api e) ∧
      (Transport.response status body).Refuses) ∨
    ∃ data, x.acknowledged .post path status body = .ok data ∧
      (Transport.response status body).Succeeds data := by
  unfold acknowledged
  split
  · exact Or.inl ⟨rfl, rfl⟩
  · exact Or.inr (Or.inl ⟨_, rfl⟩)
  next envelope =>
    cases hcode : envelopeCode envelope with
    | none => exact Or.inr (Or.inl ⟨_, rfl⟩)
    | some code =>
      dsimp only
      split
      · exact Or.inr (Or.inl ⟨_, rfl⟩)
      next hknown =>
        cases envelope with
        | obj fields =>
          have htext : (fields.lookup "code").bind Json.text = some code := by
            have := hcode
            simp only [envelopeCode, Option.filter_eq_some_iff] at this
            exact this.1
          by_cases hzero : code = "00000"
          · subst hzero
            exact Or.inr (Or.inr (Or.inr ⟨_, by simp [envelopeData, htext], status, fields, rfl,
              hstatus, hcode, rfl⟩))
          · have href : (Transport.response status (.json (.obj fields))).Refuses :=
              ⟨status, _, code, rfl, hcode, hzero, hknown⟩
            have herr : ∃ e, x.envelopeData (.obj fields) = .error (.api e) := by
              simp [envelopeData, htext, hzero, apiError]
            exact Or.inr (Or.inr (Or.inl (herr.imp fun e he => ⟨he, href⟩)))
        | _ => simp [envelopeCode] at hcode

theorem acknowledged_of_succeeds {data : Json} (h : (Transport.response status body).Succeeds data) :
    status < 400 ∧ x.acknowledged .post path status body = .ok data := by
  obtain ⟨status', fields, heq, hstatus, hcode, rfl⟩ := h
  obtain ⟨rfl, rfl⟩ := Transport.response.inj heq
  have htext : (fields.lookup "code").bind Json.text = some "00000" := by
    have := hcode
    simp only [envelopeCode, Option.filter_eq_some_iff] at this
    exact this.1
  refine ⟨hstatus, ?_⟩
  simp [acknowledged, hcode, envelopeData, htext, unknownMutationCodes]

theorem escapes_response :
    (Transport.response status body).Escapes ↔ body = .tooDeep ∧ status < 500 := by
  simp [Transport.Escapes]

/-- What a POST ends with. -/
inductive PostAnswer (d : Transport) : Except ClientError Json → Prop
  | escaped : d.Escapes ∨ d.sent = false → PostAnswer d (.error .escaped)
  | unknown (e : ApiError) : ¬ d.Escapes → (∀ data, ¬ d.Succeeds data) →
      PostAnswer d (.error (.unknownResult e))
  | refused (e : ApiError) : d.Refuses → PostAnswer d (.error (.api e))
  | succeeded (data : Json) : d.Succeeds data → PostAnswer d (.ok data)

theorem attempt_post (x : RestClient) (path : String) (last : Bool) (d : Transport) :
    ∃ outcome, x.attempt .post path last d = some outcome ∧ PostAnswer d outcome := by
  cases d with
  | failed =>
    refine ⟨_, rfl, .unknown _ ?_ ?_⟩ <;> simp [Transport.Escapes, Transport.Succeeds]
  | raised sent =>
    refine ⟨_, rfl, .escaped ?_⟩
    cases sent
    · exact Or.inr rfl
    · exact Or.inl (Or.inl rfl)
  | response status body =>
    have hsucceeds : ∀ data, (Transport.response status body).Succeeds data → status < 400 ∧
        x.acknowledged .post path status body = .ok data := fun data h => acknowledged_of_succeeds h
    have hdeep : ∀ e : ApiError, body = .tooDeep →
        x.errorStatus .post path status body ≠ .unknownResult e ∧
          x.acknowledged .post path status body ≠ .error (.unknownResult e) := by
      rintro e rfl
      exact ⟨nofun, nofun⟩
    simp only [attempt, reduceCtorEq, false_and, if_false, true_and]
    split
    next hserver =>
      refine ⟨_, rfl, .unknown _ (fun h => ?_) fun data h => ?_⟩
      · have := (escapes_response.mp h).2
        omega
      · have := (hsucceeds data h).1
        omega
    next hserver =>
      split
      next hclient =>
        rcases errorStatus_post x path status body with
          ⟨heq, rfl⟩ | ⟨e, heq⟩ | ⟨e, heq, href⟩
        · exact ⟨_, rfl, heq ▸ .escaped (Or.inl (escapes_response.mpr ⟨rfl, by omega⟩))⟩
        · refine ⟨_, rfl, heq ▸ .unknown e (fun h => ?_) fun data h => ?_⟩
          · exact (hdeep e (escapes_response.mp h).1).1 heq
          · have := (hsucceeds data h).1
            omega
        · exact ⟨_, rfl, heq ▸ .refused e href⟩
      next hclient =>
        rcases acknowledged_post x path body (show status < 400 by omega) with
          ⟨heq, rfl⟩ | ⟨e, heq⟩ | ⟨e, heq, href⟩ | ⟨data, heq, hs⟩
        · exact ⟨_, rfl, heq ▸ .escaped (Or.inl (escapes_response.mpr ⟨rfl, by omega⟩))⟩
        · refine ⟨_, rfl, heq ▸ .unknown e (fun h => ?_) fun data h => ?_⟩
          · exact (hdeep e (escapes_response.mp h).1).2 heq
          · rw [(hsucceeds data h).2] at heq
            cases heq
        · exact ⟨_, rfl, heq ▸ .refused e href⟩
        · exact ⟨_, rfl, heq ▸ .succeeded data hs⟩

/-- A POST is one attempt. -/
theorem post_eq (x : RestClient) (path : String) (payload : Payload) (t : ℕ → Transport)
    (accept : Json → Except ClientError Json) :
    ∃ outcome, PostAnswer (t 0) outcome ∧ x.post path payload t accept =
      ⟨if (t 0).sent then [{ method := .post, path, payload }] else [], outcome >>= accept⟩ := by
  obtain ⟨outcome, heq, hanswer⟩ := attempt_post x path true (t 0)
  refine ⟨outcome, hanswer, ?_⟩
  simp [post, request, attempts, heq]

end RestClient

/-! ## Mutations -/

namespace Mutation

variable {x : RestClient} {t : ℕ → Transport} {m : Mutation}

/-- The error of a method whose data has another shape. -/
def shapeError : Mutation → ClientError
  | placeEntryOrder _ => unknownResult "Bitget entry result unknown: invalid acknowledgement"
  | placeMarketClose _ => unknownResult "Bitget close result unknown: invalid acknowledgement"
  | placePositionTpsl _ =>
    .contract "Bitget placement response must be an array of objects"
  | modifyPositionStopLoss _ _ _ _ =>
    unknownResult "Bitget SL modification unknown: invalid acknowledgement"
  | cancelOrder _ _ _ _ => apiError "Bitget cancel-order response is invalid"
  | cancelEntryOrder _ _ => unknownResult "Bitget cancel result unknown: invalid acknowledgement"
  | cancelAllOrders _ _ _ => apiError "Bitget cancel-all response is invalid"

/-- The check of the data of an acknowledgement. -/
def accept (m : Mutation) (data : Json) : Except ClientError Json :=
  if m.shaped data then .ok data else .error m.shapeError

theorem definite_shapeError (m : Mutation) : m.shapeError.definite = m.misreports := by
  cases m <;> rfl

/-- Every method checks its arguments, sends one request, and checks the data. -/
theorem run_eq (x : RestClient) (t : ℕ → Transport) (m : Mutation) :
    m.run x t = x.submit m.path (m.arguments x) t m.accept := by
  cases m <;> rfl

/-- A call whose arguments are refused sends nothing, nor does one whose request fails before it is
sent ; any other ends as the answer to its POST. -/
theorem run_cases (x : RestClient) (t : ℕ → Transport) (m : Mutation) :
    ((m.run x t).requests = [] ∧ ((∃ e, m.arguments x = .error e) ∨ (t 0).sent = false)) ∨
      (∃ payload, m.arguments x = .ok payload) ∧
      ∃ outcome, RestClient.PostAnswer (t 0) outcome ∧ (t 0).sent = true ∧
        (m.run x t).requests.length = 1 ∧ (m.run x t).outcome = outcome >>= m.accept := by
  rw [run_eq]
  cases harguments : m.arguments x with
  | error e => exact Or.inl ⟨rfl, Or.inl ⟨e, rfl⟩⟩
  | ok payload =>
    obtain ⟨outcome, hanswer, hpost⟩ := RestClient.post_eq x m.path payload t m.accept
    dsimp only [RestClient.submit]
    rw [hpost]
    cases hsent : (t 0).sent with
    | false => exact Or.inl ⟨rfl, Or.inr rfl⟩
    | true => exact Or.inr ⟨⟨payload, rfl⟩, outcome, hanswer, rfl, rfl, rfl⟩

/-- A mutation ends as it must exactly when its arguments are refused, or the answer to its POST is
neither an exception that escapes nor a success whose data its method takes for a refusal. -/
theorem mutation_settled_iff (x : RestClient) (t : ℕ → Transport) (m : Mutation) :
    m.Settled (t 0) (m.run x t) ↔
      (∃ e, m.arguments x = .error e) ∨ ¬ ((t 0).Escapes ∨ m.Misshapen (t 0)) := by
  rcases run_cases x t m with ⟨hnone, hwhy⟩ | ⟨⟨payload, hpayload⟩, outcome, hanswer, hsent,
    hlength, houtcome⟩
  · refine iff_of_true ⟨by simp [hnone], fun _ _ h => absurd hnone h, fun h => absurd hnone h⟩
      (hwhy.imp_right ?_)
    rintro hunsent ((h | ⟨status, h, -⟩) | ⟨-, data, ⟨status, fields, h, -⟩, -⟩) <;>
      simp [h, Transport.sent] at hunsent
  have hsome : (m.run x t).requests ≠ [] := by
    intro h
    rw [h] at hlength
    cases hlength
  simp only [hpayload, reduceCtorEq, exists_false, false_or]
  cases hanswer with
  | escaped h =>
    have hescapes : (t 0).Escapes := h.resolve_right (by simp [hsent])
    refine iff_of_false (fun hs => ?_) (fun hn => hn (Or.inl hescapes))
    exact hescapes.not_refuses (hs.refused .escaped houtcome hsome rfl)
  | unknown e hescapes hsucceeds =>
    refine iff_of_true ⟨hlength.le, fun e' he' _ hdef => ?_, fun _ _ _ => ⟨e, houtcome⟩⟩ ?_
    · obtain rfl := Except.error.inj (houtcome.symm.trans he')
      cases hdef
    · rintro (h | ⟨-, data, h, -⟩)
      · exact hescapes h
      · exact hsucceeds data h
  | refused e href =>
    refine iff_of_true ⟨hlength.le, fun _ _ _ _ => href, fun _ h => absurd href h⟩ ?_
    rintro (h | ⟨-, data, h, -⟩)
    · exact h.not_refuses href
    · exact href.not_succeeds h
  | succeeded data hs =>
    have haccept : (m.run x t).outcome = m.accept data := houtcome
    cases hshape : m.shaped data with
    | true =>
      rw [accept, if_pos hshape] at haccept
      refine iff_of_true ⟨hlength.le, fun e he => ?_, fun _ _ h => absurd ⟨data, hs, hshape⟩ h⟩ ?_
      · rw [haccept] at he
        cases he
      · rintro (h | ⟨-, data', h, hno⟩)
        · exact h.not_succeeds hs
        · rw [hs.unique h, hno] at hshape
          cases hshape
    | false =>
      rw [accept, if_neg (by simp [hshape])] at haccept
      -- the class of the error decides
      cases hmis : m.misreports with
      | true =>
        refine iff_of_false (fun hsettled => ?_) (fun hn => hn (Or.inr ⟨hmis, data, hs, hshape⟩))
        have href := hsettled.refused _ haccept hsome (by rw [definite_shapeError, hmis])
        exact href.not_succeeds hs
      | false =>
        obtain ⟨e, he⟩ : ∃ e, m.shapeError = .unknownResult e := by
          have := definite_shapeError m
          rw [hmis] at this
          cases herr : m.shapeError <;> simp_all [ClientError.definite]
        rw [he] at haccept
        refine iff_of_true ⟨hlength.le, fun e' he' _ hdef => ?_, fun _ _ _ => ⟨e, haccept⟩⟩ ?_
        · obtain rfl := Except.error.inj (haccept.symm.trans he')
          cases hdef
        · rintro (h | ⟨hyes, -⟩)
          · exact h.not_succeeds hs
          · rw [hmis] at hyes
            cases hyes

/-! ## A cancellation that is taken for a refusal -/

/-- The venue answers every request with success, and with no data. -/
def withoutData : ℕ → Transport :=
  fun _ => .response 200 (.json (.obj [("code", .str "00000"), ("data", .null)]))

def plainClient : RestClient where
  render _ := ""
  defaultClientOid _ _ _ _ _ := ""

/-- The cancellation was sent and acknowledged without data, and ends as a definite error. -/
theorem cancelOrder_misread :
    (plainClient.cancelOrder withoutData "BTCUSDT" "1").requests.length = 1 ∧
      (plainClient.cancelOrder withoutData "BTCUSDT" "1").outcome =
        .error (apiError "Bitget cancel-order response is invalid") ∧
      ¬ (Mutation.cancelOrder "BTCUSDT" "1" "USDT-FUTURES" "USDT").Settled (withoutData 0)
        (plainClient.cancelOrder withoutData "BTCUSDT" "1") := by
  have houtcome : (plainClient.cancelOrder withoutData "BTCUSDT" "1").outcome =
      .error (apiError "Bitget cancel-order response is invalid") := by rfl
  refine ⟨rfl, houtcome, fun h => ?_⟩
  obtain ⟨status, envelope, code, heq, hcode, hne, -⟩ := h.refused _ houtcome nofun rfl
  obtain ⟨-, hbody⟩ := Transport.response.inj heq
  obtain rfl := ResponseBody.json.inj hbody
  exact hne (Option.some.inj hcode).symm

end Mutation

end FattyTrader
