import EventAnalytics.Services.EventService
import EventAnalytics.Workers.NoLoss

/-! An event on its way through the stream: encoded by the API, decoded by the
worker field by field, and the same row in the end. -/
namespace EventAnalytics.Workers

open Library Redis Services

/-- What the code relies on in `json`, `uuid` and `datetime` for one event. -/
structure Codec (py : Python) (payload : EventCreate) (body : Json) : Prop where
  loads_dumps : py.loads (py.dumps body) = .ok body
  dumps_ne : py.dumps body ≠ ""
  uuid : ∀ u, u = payload.eventId ∨ payload.userId = some u →
    py.uuidStr u ≠ "" ∧ py.uuidOf (py.uuidStr u) = some u
  datetime : ∀ ts, payload.clientTs = some ts →
    py.isoformat ts ≠ "" ∧ py.fromisoformat (py.isoformat ts) = some ts

section Decode

variable {py : Python} {payload : EventCreate} {ip userAgent : Option String}

theorem userIdOf_str {data : Dict} {user : Option UUID}
    (hcodec : ∀ u, user = some u → py.uuidStr u ≠ "" ∧ py.uuidOf (py.uuidStr u) = some u)
    (hget : data.get "user_id" = (user.map fun u => .str (py.uuidStr u)).getD .null) :
    userIdOf py data = .ok user := by
  unfold userIdOf
  rw [hget]
  cases user with
  | none => rfl
  | some u =>
      obtain ⟨hne, hof⟩ := hcodec u rfl
      simp [Json.truthy, hne, uuidOfJson, hof]

theorem clientTsOf_str {data : Dict} {ts : Option Datetime}
    (hcodec : ∀ t, ts = some t → py.isoformat t ≠ "" ∧ py.fromisoformat (py.isoformat t) = some t)
    (hget : data.get "client_ts" = (ts.map fun t => .str (py.isoformat t)).getD .null) :
    clientTsOf py data = .ok ts := by
  unfold clientTsOf
  rw [hget]
  cases ts with
  | none => rfl
  | some t =>
      obtain ⟨hne, hof⟩ := hcodec t rfl
      simp [Json.truthy, hne, hof]

theorem or_empty (properties : Dict) :
    (if properties = [] then Json.obj [] else .obj properties) = .obj properties := by
  cases properties <;> rfl

theorem event_value_ne (t : EventType) : t.value ≠ "" := by
  cases t <;> decide

/-- The dictionary of `serialize_event_payload`. -/
def asyncData (py : Python) (payload : EventCreate) (ip userAgent : Option String) : Dict :=
  match asyncPayload py payload ip userAgent with
  | .obj data => data
  | _ => []

theorem parseFields_asyncPayload
    (hcodec : Codec py payload (asyncPayload py payload ip userAgent)) :
    Mq.parseFields py ⟨some (py.dumps (asyncPayload py payload ip userAgent))⟩ =
      .ok (.obj (asyncData py payload ip userAgent)) := by
  simp only [Mq.parseFields, hcodec.dumps_ne, if_false, hcodec.loads_dumps]
  rfl

theorem event_id_truthy (hcodec : Codec py payload (asyncPayload py payload ip userAgent)) :
    ((asyncData py payload ip userAgent).get "event_id").truthy = true := by
  have hne := (hcodec.uuid _ (.inl rfl)).1
  simp [asyncData, asyncPayload, Mq.serializeEventPayload, Dict.get, Json.truthy, hne]

theorem no_parse_error :
    ((asyncData py payload ip userAgent).get "_parse_error").truthy = false := by
  simp [asyncData, asyncPayload, Mq.serializeEventPayload, Dict.get, List.lookup_cons, Json.truthy]

theorem decodeEvent_asyncData (hsession : 1 ≤ payload.sessionId.length)
    (hcodec : Codec py payload (asyncPayload py payload ip userAgent)) :
    decodeEvent py (asyncData py payload ip userAgent) =
      .ok (.row (syncRow py payload ip userAgent)) := by
  have hid : uuidOfJson py ((asyncData py payload ip userAgent).get "event_id") =
      .ok payload.eventId := by
    have hof := (hcodec.uuid _ (.inl rfl)).2
    simp [asyncData, asyncPayload, Mq.serializeEventPayload, Dict.get, uuidOfJson, hof]
  have huser : userIdOf py (asyncData py payload ip userAgent) = .ok payload.userId :=
    userIdOf_str (fun u hu => hcodec.uuid u (.inr hu)) (by
      cases huser : payload.userId <;>
        simp [asyncData, asyncPayload, Mq.serializeEventPayload, Dict.get, List.lookup_cons, huser])
  have hclient : clientTsOf py (asyncData py payload ip userAgent) = .ok payload.clientTs :=
    clientTsOf_str hcodec.datetime (by
      cases hts : payload.clientTs <;>
        simp [asyncData, asyncPayload, Mq.serializeEventPayload, Dict.get, List.lookup_cons, hts])
  have hne : payload.sessionId ≠ "" := by
    rintro hempty
    simp [hempty] at hsession
  have htype := event_value_ne payload.eventType
  unfold decodeEvent
  rw [hid, huser, hclient]
  simp [asyncData, asyncPayload, Mq.serializeEventPayload, Dict.get, List.lookup_cons, Json.truthy,
    hne, htype, or_empty, bind, Except.bind, pure, Except.pure]
  rfl

end Decode

/-- The worker takes the payload of an event for no parse error and no invalid one,
and what it inserts is the row that the sync path would insert at that time. -/
theorem same_row_through_stream (py : Python) {payload : EventCreate}
    {ip userAgent : Option String}
    (hsession : 1 ≤ payload.sessionId.length ∧ payload.sessionId.length ≤ 64)
    (hcodec : Codec py payload (asyncPayload py payload ip userAgent)) :
    ∃ data : Dict,
      Mq.parseFields py ⟨some (py.dumps (asyncPayload py payload ip userAgent))⟩ =
        .ok (.obj data) ∧
      (data.get "_parse_error").truthy = false ∧ (data.get "event_id").truthy = true ∧
      decodeEvent py data = .ok (.row (syncRow py payload ip userAgent)) ∧
      ∀ settings origin, persistEvent py settings origin data =
        persistRow settings origin (syncRow py payload ip userAgent) := by
  have hdecode := decodeEvent_asyncData hsession.1 hcodec
  refine ⟨asyncData py payload ip userAgent, parseFields_asyncPayload hcodec, no_parse_error,
    event_id_truthy hcodec, hdecode, fun settings origin => ?_⟩
  simp [persistEvent, hdecode, Prog.ofExcept]

def fullText : String :=
  "\x7b\"event_id\": \"00000000-0000-0000-0000-000000000001\", " ++
    "\"user_id\": \"00000000-0000-0000-0000-000000000007\", \"session_id\": \"s1\", " ++
    "\"event_type\": \"order\", \"properties\": \x7b\"sku\": \"\"\x7d, " ++
    "\"client_ts\": \"2024-05-01T00:00:00+00:00\", \"ip_hash\": null, \"user_agent\": \"\"\x7d"

def fullPayload : EventCreate where
  eventId := 1
  userId := some 7
  sessionId := "s1"
  eventType := .order
  properties := [("sku", .str "")]
  clientTs := some ⟨1714521600000000, some 0⟩

def fullPython : Python :=
  { Python.ofTable
      [(fullText,
        [("event_id", .str "00000000-0000-0000-0000-000000000001"),
          ("user_id", .str "00000000-0000-0000-0000-000000000007"), ("session_id", .str "s1"),
          ("event_type", .str "order"), ("properties", .obj [("sku", .str "")]),
          ("client_ts", .str "2024-05-01T00:00:00+00:00"), ("ip_hash", .null),
          ("user_agent", .str "")])]
      [("00000000-0000-0000-0000-000000000001", 1),
        ("00000000-0000-0000-0000-000000000007", 7)] with
    fromisoformat := fun s =>
      if s = "2024-05-01T00:00:00+00:00" then some ⟨1714521600000000, some 0⟩ else none
    isoformat := fun _ => "2024-05-01T00:00:00+00:00" }

set_option maxRecDepth 4000 in
theorem fullPython_codec :
    Codec fullPython fullPayload (asyncPayload fullPython fullPayload none (some "")) := by
  refine ⟨rfl, by decide +kernel, ?_, ?_⟩
  · rintro u (rfl | hu)
    · decide +kernel
    · cases hu
      decide +kernel
  · intro ts hts
    cases hts
    decide +kernel

theorem same_row_through_stream_full :
    ∃ data : Dict,
      Mq.parseFields fullPython
        ⟨some (fullPython.dumps (asyncPayload fullPython fullPayload none (some "")))⟩ =
          .ok (.obj data) ∧
      (data.get "_parse_error").truthy = false ∧ (data.get "event_id").truthy = true ∧
      decodeEvent fullPython data =
        .ok (.row (syncRow fullPython fullPayload none (some ""))) ∧
      ∀ settings origin, persistEvent fullPython settings origin data =
        persistRow settings origin (syncRow fullPython fullPayload none (some "")) :=
  same_row_through_stream fullPython (by decide) fullPython_codec

end EventAnalytics.Workers
