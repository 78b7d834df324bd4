import CloudGateway.Proof.Responses

/-!
# The header fields of a request

The fields of a request are set one after the other: those the client sets for every
request, then those of the caller, then those of the payload. What Beast does with one
of them is `FieldRules`, as its documentation has it. Since setting a field drops the
fields of that name, whatever its case, the last one set is the one that is written,
and each name is written once.
-/

namespace CloudGateway.Proof

open Transport

variable {net : Network} {fields fields' : List (Bytes × Bytes)}

/-! ## Fields by name -/

theorem sameName_iff {a b : Bytes} : sameName a b = true ↔ a.map toLower = b.map toLower := by
  rw [sameName, beq_iff_eq]

theorem sameName_comm (a b : Bytes) : sameName a b = sameName b a := by
  rw [Bool.eq_iff_iff, sameName_iff, sameName_iff, eq_comm]

theorem sameName_congr {a b : Bytes} (h : sameName a b = true) (c : Bytes) :
    sameName a c = sameName b c := by
  rw [Bool.eq_iff_iff, sameName_iff, sameName_iff, sameName_iff.mp h]

/-- The value under a name. -/
def fieldValue (fields : List (Bytes × Bytes)) (name : Bytes) : Option Bytes :=
  (fields.find? (fun f => sameName f.1 name)).map (·.2)

/-- No two fields have the same name. -/
def Distinct (fields : List (Bytes × Bytes)) : Prop :=
  fields.Pairwise (fun f g => sameName f.1 g.1 = false)

/--
What the fields of a request are after a call of Beast that has not thrown. `stored` is
what is kept of a value, which loses the spaces around it, and `unchunked` what is left
of a `Transfer-Encoding` without the `chunked` at its end, if anything.
-/
structure FieldRules (net : Network) (stored : Bytes → Bytes)
    (unchunked : Bytes → Option Bytes) : Prop where
  /-- `set` drops the fields of the name, in whatever case, and puts in one. -/
  set : ∀ {fields fields' name value}, Distinct fields →
    net.set fields name value = .ok fields' →
      Distinct fields' ∧ ∀ m, fieldValue fields' m
        = if sameName name m then some (stored value) else fieldValue fields m
  /-- `prepare_payload` of a request with a body sets its length, and it is not chunked. -/
  payload : ∀ {wire fields'}, wire.body ≠ [] → Distinct wire.fields →
    net.preparePayload wire = .ok fields' →
      Distinct fields' ∧ ∀ m, fieldValue fields' m
        = if sameName (utf8 "Transfer-Encoding") m then
            (fieldValue wire.fields (utf8 "Transfer-Encoding")).bind unchunked
          else if sameName (utf8 "Content-Length") m then
            some (utf8 (toString wire.body.length))
          else fieldValue wire.fields m

/-! ## Setting many -/

/-- The value that a list of headers gives a name: the last one. -/
def lastValue : List (Bytes × Bytes) → Bytes → Option Bytes
  | [], _ => none
  | h :: headers, name =>
      (lastValue headers name).or (if sameName h.1 name then some h.2 else none)

theorem bind_eq_ok {α β : Type} {x : Except Bytes α} {f : α → Except Bytes β} {b : β}
    (h : x >>= f = .ok b) : ∃ a, x = .ok a ∧ f a = .ok b := by
  cases x with
  | error what => exact absurd h (by simp [bind, Except.bind])
  | ok a => exact ⟨a, rfl, h⟩

section Rules

variable {stored : Bytes → Bytes} {unchunked : Bytes → Option Bytes}

/-- **After a loop over headers, a name has the last value given to it, or the one before.** -/
theorem fieldValue_setAll (hrules : FieldRules net stored unchunked) {headers : HeaderMap}
    (hfields : Distinct fields) (h : net.setAll fields headers = .ok fields') :
    Distinct fields' ∧ ∀ m, fieldValue fields' m
      = ((lastValue headers m).map stored).or (fieldValue fields m) := by
  induction headers generalizing fields with
  | nil =>
      obtain rfl := Except.ok.inj h
      exact ⟨hfields, fun m => by rw [lastValue, Option.map_none, Option.none_or]⟩
  | cons g headers ih =>
      obtain ⟨after, hset, hrest⟩ := bind_eq_ok h
      obtain ⟨hafter, hvalue⟩ := hrules.set hfields hset
      obtain ⟨hdistinct, hlast⟩ := ih hafter hrest
      refine ⟨hdistinct, fun m => ?_⟩
      rw [hlast, hvalue, lastValue]
      cases lastValue headers m with
      | some value => rfl
      | none =>
          by_cases hm : sameName g.1 m = true
          · rw [if_pos hm, if_pos hm]
            rfl
          · rw [if_neg hm, if_neg hm]
            rfl

/-! ## The request -/

/-- What is set for a request, in order, before its payload. -/
def asked (request : HttpRequest) : List (Bytes × Bytes) :=
  (utf8 "Host", request.url.host) :: (utf8 "User-Agent", utf8 "VehicleGateway/2.0")
    :: (utf8 "Connection", utf8 "close") :: request.headers

/-- The value that is written under a name. -/
def wireValue (stored : Bytes → Bytes) (unchunked : Bytes → Option Bytes)
    (request : HttpRequest) (name : Bytes) : Option Bytes :=
  if request.body ≠ [] ∧ sameName (utf8 "Transfer-Encoding") name then
    ((lastValue (asked request) (utf8 "Transfer-Encoding")).map stored).bind unchunked
  else if request.body ≠ [] ∧ sameName (utf8 "Content-Length") name then
    some (utf8 (toString request.body.length))
  else (lastValue (asked request) name).map stored

theorem setAll_cons (fields : List (Bytes × Bytes)) (g : Bytes × Bytes) (headers : HeaderMap) :
    net.setAll fields (g :: headers) =
      net.set fields g.1 g.2 >>= fun fields => net.setAll fields headers := rfl

/-- A request is put together by one loop over what is asked, and then its payload. -/
theorem wireRequest_ok {request : HttpRequest} {wire : WireRequest}
    (h : net.wireRequest request = .ok wire) :
    wire.method = request.method ∧ wire.target = request.url.path ∧ wire.body = request.body
      ∧ ∃ before, net.setAll [] (asked request) = .ok before
        ∧ (request.body = [] ∧ wire.fields = before
          ∨ request.body ≠ [] ∧ net.preparePayload
              { method := request.method, target := request.url.path, fields := before,
                body := request.body } = .ok wire.fields) := by
  unfold Network.wireRequest at h
  obtain ⟨host, hhost, h⟩ := bind_eq_ok h
  obtain ⟨agent, hagent, h⟩ := bind_eq_ok h
  obtain ⟨connection, hconnection, h⟩ := bind_eq_ok h
  obtain ⟨before, hbefore, h⟩ := bind_eq_ok h
  have hasked : net.setAll [] (asked request) = .ok before := by
    rw [asked, setAll_cons, hhost]
    change net.set host _ _ >>= _ = _
    rw [hagent]
    change net.set agent _ _ >>= _ = _
    rw [hconnection]
    exact hbefore
  rw [Network.setBody] at h
  by_cases hbody : request.body = []
  · rw [if_pos hbody] at h
    obtain rfl := Except.ok.inj h
    exact ⟨rfl, rfl, hbody.symm, before, hasked, .inl ⟨hbody, rfl⟩⟩
  · rw [if_neg hbody] at h
    obtain ⟨after, hafter, h⟩ := bind_eq_ok h
    obtain rfl := Except.ok.inj h
    exact ⟨rfl, rfl, rfl, before, hasked, .inr ⟨hbody, hafter⟩⟩

/-- **What is written under a name.** -/
theorem fieldValue_wire (hrules : FieldRules net stored unchunked) {request : HttpRequest}
    {wire : WireRequest} (h : net.wireRequest request = .ok wire) :
    Distinct wire.fields
      ∧ ∀ name, fieldValue wire.fields name = wireValue stored unchunked request name := by
  obtain ⟨-, -, -, before, hbefore, hpayload⟩ := wireRequest_ok h
  obtain ⟨hdistinct, hvalue⟩ := fieldValue_setAll hrules List.Pairwise.nil hbefore
  have hasked (m : Bytes) : fieldValue before m = (lastValue (asked request) m).map stored := by
    rw [hvalue, fieldValue, List.find?_nil, Option.map_none, Option.or_none]
  rcases hpayload with ⟨hempty, hfields⟩ | ⟨hbody, hfields⟩
  · rw [hfields]
    refine ⟨hdistinct, fun name => ?_⟩
    rw [wireValue, if_neg (fun hne => hne.1 hempty), if_neg (fun hne => hne.1 hempty), hasked]
  · obtain ⟨hafter, hprepared⟩ := hrules.payload hbody hdistinct hfields
    refine ⟨hafter, fun name => ?_⟩
    rw [hprepared, wireValue, hasked, hasked]
    by_cases hchunk : sameName (utf8 "Transfer-Encoding") name = true
    · rw [if_pos hchunk, if_pos ⟨hbody, hchunk⟩]
    · have hnochunk : ¬ (request.body ≠ [] ∧ sameName (utf8 "Transfer-Encoding") name = true) :=
        fun hne => hchunk hne.2
      rw [if_neg hchunk, if_neg hnochunk]
      by_cases hlength : sameName (utf8 "Content-Length") name = true
      · rw [if_pos hlength, if_pos ⟨hbody, hlength⟩]
      · have hnolength : ¬ (request.body ≠ [] ∧ sameName (utf8 "Content-Length") name = true) :=
          fun hne => hlength hne.2
        rw [if_neg hlength, if_neg hnolength]

end Rules

/--
**Every request is written with one value a name, and the caller's word is the last.**
What is written is a request of one of the calls, at its place in the trail of that
call. If Beast does with the fields what it says, a header of the caller takes the
place of `Host`, `User-Agent` or `Connection`, whatever the case of the names, and only
a body has a say over the caller: it sets the `Content-Length` to its own, and takes the
`chunked` from the `Transfer-Encoding`.
-/
theorem written_fields (net : Network) (stored : Bytes → Bytes)
    (unchunked : Bytes → Option Bytes) (hrules : FieldRules net stored unchunked)
    (work : List (HttpClient × HttpClient.Call)) {before after : List NetCall}
    {wire : WireRequest} (h : net.session work [] = before ++ .write wire :: after) :
    ∃ i w es k e, work[i]? = some w ∧ es[k]? = some e
      ∧ CallTrail net (net.session (work.take i) []) w.1 w.2 es
      ∧ before = callsFor net (net.session (work.take i) []) (es.take k)
          ++ opening e.request.url
      ∧ wire.method = e.request.method ∧ wire.target = e.request.url.path
      ∧ wire.body = e.request.body ∧ Distinct wire.fields
      ∧ ∀ name, fieldValue wire.fields name
          = wireValue stored unchunked e.request name := by
  obtain ⟨i, w, es, k, e, hi, hk, htrail, hwire, hbefore⟩ := written_by_call h
  obtain ⟨hmethod, htarget, hbody, -⟩ := wireRequest_ok hwire
  obtain ⟨hdistinct, hvalue⟩ := fieldValue_wire hrules hwire
  exact ⟨i, w, es, k, e, hi, hk, htrail, hbefore, hmethod, htarget, hbody, hdistinct, hvalue⟩

/-! ## The calm network -/

theorem fieldValue_without (fields : List (Bytes × Bytes)) (name m : Bytes) :
    fieldValue (without fields name) m = if sameName name m then none else fieldValue fields m := by
  rw [fieldValue, fieldValue, without, List.find?_filter]
  by_cases hm : sameName name m = true
  · rw [if_pos hm]
    have hnone : fields.find? (fun f => !sameName f.1 name && sameName f.1 m) = none := by
      rw [List.find?_eq_none]
      intro f _ hf
      rw [Bool.and_eq_true] at hf
      rw [sameName_comm, sameName_congr hm, sameName_comm, hf.2] at hf
      exact absurd hf.1 (by simp)
    simpa using hnone
  · rw [if_neg hm]
    congr 2
    funext f
    by_cases hf : sameName f.1 m = true
    · have hname : sameName f.1 name = false := by
        rw [sameName_congr hf, sameName_comm]
        simpa using hm
      simp [hf, hname]
    · simp [hf]

theorem distinct_without (h : Distinct fields) (name : Bytes) : Distinct (without fields name) :=
  h.sublist List.filter_sublist

theorem fieldValue_withField (fields : List (Bytes × Bytes)) (name value m : Bytes) :
    fieldValue (withField fields name value) m
      = if sameName name m then some value else fieldValue fields m := by
  rw [withField, fieldValue, List.find?_append]
  have hwithout := fieldValue_without fields name m
  rw [fieldValue] at hwithout
  by_cases hm : sameName name m = true
  · rw [if_pos hm, Option.map_eq_none_iff] at hwithout
    rw [if_pos hm, hwithout]
    simp [hm]
  · rw [if_neg hm] at hwithout ⊢
    rw [← hwithout]
    simp [hm]

theorem distinct_withField (h : Distinct fields) (name value : Bytes) :
    Distinct (withField fields name value) := by
  refine List.pairwise_append.mpr ⟨distinct_without h name, List.pairwise_singleton _ _, ?_⟩
  intro f hf g hg
  rw [List.mem_singleton.mp hg]
  simpa using (List.mem_filter.mp hf).2

theorem calmNetwork_rules : FieldRules calmNetwork trimmed (fun _ => none) where
  set := by
    intro fields fields' name value hfields h
    obtain rfl := Except.ok.inj h
    exact ⟨distinct_withField hfields name _, fieldValue_withField fields name _⟩
  payload := by
    intro wire fields' _ hfields h
    obtain rfl := Except.ok.inj h
    refine ⟨distinct_withField (distinct_without hfields _) _ _, fun m => ?_⟩
    have hother : ∀ m, sameName (utf8 "Content-Length") m = true →
        sameName (utf8 "Transfer-Encoding") m = false := by
      intro m hm
      rw [sameName_comm, ← sameName_congr hm]
      decide
    rw [fieldValue_withField, fieldValue_without]
    by_cases hlength : sameName (utf8 "Content-Length") m = true
    · rw [if_pos hlength, if_pos hlength, hother m hlength, if_neg Bool.false_ne_true]
    · rw [if_neg hlength, if_neg hlength]
      split
      · cases fieldValue wire.fields (utf8 "Transfer-Encoding") with
        | none => rfl
        | some value => rfl
      · rfl

theorem written_fields_host :
    let work : List (HttpClient × HttpClient.Call) :=
      [(⟨{}⟩, .post (utf8 "http://h/a") [(utf8 "host", utf8 " x ")] (utf8 "hello"))]
    ∃ (before after : List NetCall) (wire : WireRequest),
      wire.fields = [(utf8 "User-Agent", utf8 "VehicleGateway/2.0"),
        (utf8 "Connection", utf8 "close"), (utf8 "host", utf8 "x"),
        (utf8 "Content-Length", utf8 "5")]
      ∧ calmNetwork.session work [] = before ++ .write wire :: after
      ∧ ∃ i w es k e, work[i]? = some w ∧ es[k]? = some e
        ∧ CallTrail calmNetwork (calmNetwork.session (work.take i) []) w.1 w.2 es
        ∧ before = callsFor calmNetwork (calmNetwork.session (work.take i) []) (es.take k)
            ++ opening e.request.url
        ∧ wire.method = e.request.method ∧ wire.target = e.request.url.path
        ∧ wire.body = e.request.body ∧ Distinct wire.fields
        ∧ ∀ name, fieldValue wire.fields name
            = wireValue trimmed (fun _ => none) e.request name := by
  have hrun : calmNetwork.session
        [(⟨{}⟩, .post (utf8 "http://h/a") [(utf8 "host", utf8 " x ")] (utf8 "hello"))] []
      = [.resolve (utf8 "h") (utf8 "80"), .connect]
        ++ .write ⟨.post, utf8 "/a", [(utf8 "User-Agent", utf8 "VehicleGateway/2.0"),
          (utf8 "Connection", utf8 "close"), (utf8 "host", utf8 "x"),
          (utf8 "Content-Length", utf8 "5")], utf8 "hello"⟩ :: [.read false] := by
    decide
  exact ⟨_, _, _, rfl, hrun,
    written_fields calmNetwork trimmed (fun _ => none) calmNetwork_rules _ hrun⟩

end CloudGateway.Proof
