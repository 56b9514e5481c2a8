import FileGate.Client.Call

/-! The rounds of a call. A call that has not been recovered from before is sent once or twice, and
what becomes of it hangs on the first reply and on the recovery alone. -/
namespace FileGate

/-- A configuration that can be used: its address is a text and its patterns are patterns. -/
structure Config.Usable (c : Config) : Prop where
  base : ∃ s, c.baseUrl = .text s
  public_known : ∃ s there, c.rule.publicPattern = .text s ∧ c.patterns s = .ok there
  protected_known : ∃ s there, c.rule.protectedPattern = .text s ∧ c.patterns s = .ok there

theorem Config.default_usable : Config.Usable {} :=
  ⟨⟨_, rfl⟩, ⟨_, _, rfl, rfl⟩, ⟨_, _, rfl, rfl⟩⟩

theorem PathRule.occurs_of_known {patterns : Patterns} {v : Value} (path : String)
    (h : ∃ s there, v = .text s ∧ patterns s = .ok there) :
    ∃ b, PathRule.occurs v path patterns = .ok b := by
  obtain ⟨s, there, rfl, known⟩ := h
  exact ⟨there path, by simp [PathRule.occurs, known]⟩

theorem Config.Usable.requiresAuthorization {c : Config} (u : c.Usable) (path : String) :
    ∃ b, c.requiresAuthorization path = .ok b := by
  obtain ⟨open_, ho⟩ := PathRule.occurs_of_known path u.public_known
  obtain ⟨closed, hc⟩ := PathRule.occurs_of_known path u.protected_known
  rw [Config.requiresAuthorization, PathRule.requiresAuthorization, ho]
  cases open_
  · exact ⟨closed, hc⟩
  · exact ⟨false, rfl⟩

theorem Config.Usable.urlFor {c : Config} (u : c.Usable) (path : List Char) :
    ∃ url, c.urlFor path = .ok url := by
  obtain ⟨s, hs⟩ := u.base
  rw [Config.urlFor, hs]
  exact ⟨_, rfl⟩

theorem Config.urlFor_default (path : List Char) :
    ({} : Config).urlFor path =
      .ok (String.ofList ("http://127.0.0.1:8080".toList ++ path)) := rfl

/-! ### Mappings -/

def Body.headers (body : Body) (h : Headers) : Headers :=
  match body with
  | form _ => withDefault contentType formType h
  | _ => h

theorem Body.headers_eq {body : Body} {h h' : Headers} {streaming : Bool} {n : Int} {p : Payload}
    (encoded : body.encode h streaming n = .ok (p, h')) : h' = body.headers h := by
  cases body with
  | other v => cases encoded
  | _ => cases encoded; rfl

namespace Desk

variable {d d' : Desk} {m m' : Mapping}

def Has (d : Desk) : Mapping → Prop
  | .callers => True
  | .copy n => n < d.copies.length

/-- What is on the one desk is on the other one as well, and more copies may be. -/
structure Within (d d' : Desk) : Prop where
  lent : d'.toLent = d.toLent
  copies : d.copies <+: d'.copies

theorem Within.refl (d : Desk) : Within d d := ⟨rfl, List.prefix_rfl⟩

theorem Within.has (within : Within d d') (has : d.Has m) : d'.Has m := by
  cases m with
  | callers => trivial
  | copy n => exact Nat.lt_of_lt_of_le has within.copies.length_le

theorem Within.read (within : Within d d') (has : d.Has m) : d'.read m = d.read m := by
  cases m with
  | callers => exact congrArg Lent.headers within.lent
  | copy n =>
    obtain ⟨more, copies⟩ := within.copies
    have there : n < d.copies.length := has
    rw [Desk.read, Desk.read, ← copies, List.getD_eq_getElem?_getD, List.getElem?_append_left there,
      ← List.getD_eq_getElem?_getD]

theorem copied_spec (m : Mapping) (d : Desk) :
    Within d (d.copied m).2 ∧ (d.copied m).2.read (d.copied m).1 = d.read m ∧
      (d.copied m).2.Has (d.copied m).1 ∧ ¬ d.Has (d.copied m).1 := by
  refine ⟨⟨rfl, List.prefix_append _ _⟩, ?_, ?_, Nat.lt_irrefl _⟩
  · simp [copied, Desk.read]
  · simp [copied, Has]

theorem read_write (h : Headers) (has : d.Has m) : (d.write h m).read m = h := by
  cases m with
  | callers => rfl
  | copy n =>
    have there : n < d.copies.length := has
    simp [write, Desk.read, there]

theorem Within.write (within : Within d d') (h : Headers) (new : ¬ d.Has m) :
    Within d (d'.write h m) := by
  cases m with
  | callers => exact absurd trivial new
  | copy n =>
    obtain ⟨more, copies⟩ := within.copies
    refine ⟨within.lent, more.set (n - d.copies.length) h, ?_⟩
    rw [Desk.write, ← copies, List.set_append_right _ _ (Nat.le_of_not_lt new)]

theorem has_write (h : Headers) (m' : Mapping) (has : d.Has m) : (d.write h m').Has m := by
  cases m with
  | callers => trivial
  | copy n =>
    cases m' with
    | callers => exact has
    | copy k => simpa [write, Has] using has

theorem put_spec (name value : String) (has : d'.Has m) :
    (d'.put m name value).read m = Assoc.put name value (d'.read m) ∧
      (d'.put m name value).Has m :=
  ⟨read_write _ has, has_write _ _ has⟩

end Desk

variable {ω : Type}

/-- A recovery that changes nothing that has been lent. -/
def Recovery.Idle (recover : Recovery ω) : Prop := ∀ c l, recover.amend c l = l

def Options.reading (o : Options ω) (l : Lent) : Options ω :=
  { o with method := l.method, stream := l.stream }

/-- The mapping that the attempts of a call copy once its headers have become these, and the desk
with it. -/
def Options.laid (o : Options ω) (headers : Headers) : Mapping × Desk :=
  match o.body with
  | .form _ => (.copy 0, { o.lent with copies := [headers] })
  | _ => (.callers, { o.lent with headers, copies := [] })

theorem Options.laid_spec (o : Options ω) (headers : Headers) :
    (o.laid headers).2.Has (o.laid headers).1 ∧
      (o.laid headers).2.read (o.laid headers).1 = headers ∧
      (o.laid headers).2.method = o.method ∧ (o.laid headers).2.stream = o.stream := by
  unfold laid
  split
  · exact ⟨Nat.zero_lt_one, rfl, rfl, rfl⟩
  · exact ⟨trivial, rfl, rfl, rfl⟩

/-- The headers that an attempt copies: those of a form are in no one else's hands. -/
def Options.mapped (o : Options ω) (headers : Headers) (l : Lent) : Headers :=
  match o.body with
  | .form _ => headers
  | _ => l.headers

theorem Options.read_amended (o : Options ω) (headers : Headers) (f : Lent → Lent) :
    ((o.laid headers).2.amended f).read (o.laid headers).1 =
      o.mapped headers (f (o.laid headers).2.toLent) := by
  obtain ⟨method, given, body, stream, progress, recovery, result⟩ := o
  cases body <;> rfl

theorem Options.laid_lent {o : Options ω} {streaming : Bool} {n : Int} {p : Payload}
    {headers : Headers} (encoded : o.body.encode o.headers streaming n = .ok (p, headers)) :
    (o.laid headers).2.toLent = o.lent := by
  obtain ⟨method, given, body, stream, progress, recovery, result⟩ := o
  have same : headers = body.headers given := Body.headers_eq encoded
  cases body with
  | form fields => rfl
  | _ => subst same; rfl

theorem Options.mapped_lent {o : Options ω} {streaming : Bool} {n : Int} {p : Payload}
    {headers : Headers} (encoded : o.body.encode o.headers streaming n = .ok (p, headers)) :
    o.mapped headers o.lent = headers := by
  have same : (o.laid headers).2.read (o.laid headers).1 =
      o.mapped headers (o.laid headers).2.toLent := o.read_amended headers id
  rw [← Options.laid_lent encoded, ← same, (o.laid_spec headers).2.1]

theorem Desk.encode_eq (o : Options ω) (streaming : Bool) (n : Int) :
    Desk.encode o.body streaming n { o.lent with copies := [] } =
      (o.body.encode o.headers streaming n).map fun r => (r.1, o.laid r.2) := by
  obtain ⟨method, headers, body, stream, progress, recovery, result⟩ := o
  cases body <;> rfl

namespace Client

theorem start_cases {path : String} {c : Client ω} (absolute : isAbsolute path = true) :
    (∃ f, ¬ c.config.Usable ∧ c.start path = .error f) ∨
    ∃ guarded url, c.config.requiresAuthorization path = .ok guarded ∧
      c.config.urlFor path.toList = .ok url ∧ c.start path = .ok { path, url, guarded } := by
  have begun : ensureAbsolute path = .ok path := by simp [ensureAbsolute, absolute]
  rw [start, begun]
  cases hg : c.config.requiresAuthorization path with
  | error f =>
    refine .inl ⟨f, fun u => ?_, rfl⟩
    obtain ⟨b, hb⟩ := u.requiresAuthorization path
    cases hg.symm.trans hb
  | ok guarded =>
    cases hu : c.config.urlFor path.toList with
    | error f =>
      refine .inl ⟨f, fun u => ?_, rfl⟩
      obtain ⟨url, hb⟩ := u.urlFor path.toList
      cases hu.symm.trans hb
    | ok url => exact .inr ⟨guarded, url, rfl, rfl, rfl⟩

theorem start_eq_ok {path : String} {c : Client ω} {call : Call}
    (started : c.start path = .ok call) :
    c.config.requiresAuthorization path = .ok call.guarded ∧
      c.config.urlFor path.toList = .ok call.url ∧
      call = { path, url := call.url, guarded := call.guarded } := by
  obtain ⟨_, _, started⟩ := exists_of_bind_ok started
  obtain ⟨_, rule, started⟩ := exists_of_bind_ok started
  obtain ⟨_, address, started⟩ := exists_of_bind_ok started
  cases started
  exact ⟨rule, address, rfl⟩

theorem fresh_of_start {path : String} {c : Client ω} {call : Call}
    (started : c.start path = .ok call) : call.retried = false := by
  rw [(start_eq_ok started).2.2]

theorem idle_of_start {path : String} {c : Client ω} {call : Call}
    (started : c.start path = .ok call) : call.state = .idle := by
  rw [(start_eq_ok started).2.2]

/-! ### Rounds -/

/-- The headers of an attempt: on a protected path the others, with the token of its moment and with
the wish that nothing be stored. -/
def attemptHeaders (guarded : Bool) (token : Value) (h : Headers) : Headers :=
  if guarded then
    Assoc.put "Cache-Control" "no-store" (Assoc.put "Authorization" (Authorization.bearer token) h)
  else h

theorem ready_spec (m : Mapping) (guarded : Bool) (d : Desk) (c : Client ω) :
    (c.ready m guarded d).2.read (c.ready m guarded d).1 =
        attemptHeaders guarded c.accessToken (d.read m) ∧
      d.Within (c.ready m guarded d).2 := by
  obtain ⟨within, same, has, new⟩ := Desk.copied_spec m d
  rw [ready]
  generalize d.copied m = p at *
  obtain ⟨own, d'⟩ := p
  cases guarded with
  | false => exact ⟨same, within⟩
  | true =>
    obtain ⟨token, has₁⟩ := Desk.put_spec "Authorization" (Authorization.bearer c.accessToken) has
    obtain ⟨store, _⟩ := Desk.put_spec "Cache-Control" "no-store" has₁
    refine ⟨?_, (within.write _ new).write _ new⟩
    simp only [if_true, store, token, same, attemptHeaders]

def exchangeOf (o : Options ω) (headers : Headers) (call : Call) (c : Client ω) : Exchange :=
  ⟨o.method, call.url, attemptHeaders call.guarded c.accessToken headers, c.config.timeout,
    some o.stream, .nothing, none⟩

def Call.sentOnce (call : Call) : Call :=
  { call with state := .sent, attempts := call.attempts + 1 }

def Attempt.after (net : Network ω) (call : Call) :
    Client ω × Payload × Except Failure Received → Attempt ω
  | (c, payload, .error f) => ⟨c, call, payload, .error f⟩
  | (c, payload, .ok r) =>
    if net.stopped c.world then ⟨c.close r.number, call, payload, .error .abortedNow⟩
    else ⟨c, call, payload, .ok r⟩

def send (net : Network ω) (o : Options ω) (headers : Headers) (call : Call) (p : Payload)
    (c : Client ω) : Attempt ω :=
  if net.stopped c.world then ⟨c, call, p, .error .abortedNow⟩
  else Attempt.after net (Call.sentOnce call)
    (c.transmit net o.progress (exchangeOf o headers call c) p)

theorem send_eq (net : Network ω) (o : Options ω) (headers : Headers) (call : Call) (p : Payload)
    (c : Client ω) :
    c.send net o headers call p =
      if net.stopped c.world then ⟨c, call, p, .error .abortedNow⟩
      else Attempt.after net (Call.sentOnce call)
        (c.transmit net o.progress (exchangeOf o headers call c) p) := rfl

/-- An attempt goes by what stands on the desk, and only adds copies to it. -/
theorem attempt_spec (net : Network ω) (o : Options ω) (m : Mapping) (call : Call) (p : Payload)
    (d : Desk) (c : Client ω) :
    d.Within (c.attempt net o m call p d).1 ∧ (c.attempt net o m call p d).2 =
      c.send net (o.reading d.toLent) (d.read m) call p := by
  by_cases stopped : net.stopped c.world = true
  · rw [attempt, if_pos stopped, send, if_pos stopped]
    exact ⟨.refl d, rfl⟩
  · obtain ⟨same, within⟩ := c.ready_spec m call.guarded d
    rw [attempt, if_neg stopped, send, if_neg stopped]
    generalize c.ready m call.guarded d = q at *
    obtain ⟨own, d'⟩ := q
    have begun : (⟨d'.method, call.url, d'.read own, c.config.timeout, some d'.stream, .nothing,
        none⟩ : Exchange) = exchangeOf (o.reading d.toLent) (d.read m) call c := by
      rw [exchangeOf, ← same, ← within.lent]
      rfl
    dsimp only
    rw [begun]
    have told : (o.reading d.toLent).progress = o.progress := rfl
    rw [told]
    rcases c.transmit net o.progress (exchangeOf (o.reading d.toLent) (d.read m) call c) p
      with ⟨c₁, p₁, f | r⟩
    · exact ⟨within, rfl⟩
    · simp only [Attempt.after]
      split
      · exact ⟨within, rfl⟩
      · exact ⟨within, rfl⟩

def Attempt.settled (a : Attempt ω) : Client ω × Call × Except Failure Received :=
  match a.outcome with
  | .error f => (a.client, a.call, .error f)
  | .ok r => (a.client, settle a.call r)

def Attempt.refused (a : Attempt ω) : Call := { a.call with state := .unauthorized, retried := true }

theorem Attempt.settled_error {a : Attempt ω} {f : Failure} (h : a.outcome = .error f) :
    a.settled = (a.client, a.call, .error f) := by
  simp [settled, h]

theorem Attempt.settled_ok {a : Attempt ω} {r : Received} (h : a.outcome = .ok r) :
    a.settled = (a.client, (settle a.call r).1, (settle a.call r).2) := by
  simp [settled, h]

section
variable {net : Network ω} {o : Options ω} {recovery : Option (Recovery ω)} {m : Mapping}
  {call : Call} {payload : Payload} {d : Desk} {c : Client ω}

theorem rounds_of_over {d' : Desk} {c' : Client ω} {call' : Call} {x : Except Failure Received}
    (h : c.round net o recovery m call payload d = .over d' c' call' x) :
    c.rounds net o recovery m call payload d = (d', c', call', x) := by
  rw [rounds]
  split <;> rename_i h' <;> cases h'.symm.trans h
  rfl

theorem rounds_of_again {d' : Desk} {c' : Client ω} {call' : Call} {payload' : Payload}
    (h : c.round net o recovery m call payload d = .again d' c' call' payload') :
    c.rounds net o recovery m call payload d =
      c'.rounds net o recovery m call' payload' d' := by
  rw [rounds]
  split <;> rename_i h' <;> cases h'.symm.trans h
  rfl

theorem rounds_of_settled {d₁ : Desk} {a : Attempt ω}
    (first : c.attempt net o m call payload d = (d₁, a))
    (stays : ∀ r, a.outcome = .ok r → recovery = none ∨ r.reply.status ≠ 401 ∨
      call.guarded = false ∨ call.retried = true) :
    c.rounds net o recovery m call payload d = (d₁, a.settled) := by
  cases came : a.outcome with
  | error f =>
    rw [Attempt.settled_error came]
    exact rounds_of_over (by simp [round, first, came])
  | ok r =>
    rw [Attempt.settled_ok came]
    apply rounds_of_over
    cases recovery with
    | none => simp [round, first, came]
    | some recover =>
      rcases (stays r came).resolve_left (by simp) with h | h | h <;> simp [round, first, came, h]

theorem round_of_recovered (recover : Recovery ω) {d₁ : Desk} {a : Attempt ω} {r : Received}
    (first : c.attempt net o m call payload d = (d₁, a)) (came : a.outcome = .ok r)
    (refused : r.reply.status = 401) (guarded : call.guarded = true)
    (fresh : call.retried = false) :
    c.round net o (some recover) m call payload d =
      match recover (a.client.close r.number) with
      | (c', some f) => .over (d₁.amended (recover.amend (a.client.close r.number))) c'
          { a.refused with state := .failed } (.error f)
      | (c', none) =>
        .again (d₁.amended (recover.amend (a.client.close r.number))) c' a.refused a.payload := by
  rcases tried : recover (a.client.close r.number) with ⟨c', _ | f⟩ <;>
    simp [round, first, came, refused, guarded, fresh, tried, Attempt.refused]

theorem rounds_of_retried (h : call.retried = true) :
    ∃ d', d.Within d' ∧ c.rounds net o recovery m call payload d =
      (d', (c.send net (o.reading d.toLent) (d.read m) call payload).settled) := by
  obtain ⟨within, same⟩ := attempt_spec net o m call payload d c
  refine ⟨_, within, ?_⟩
  rw [← same]
  exact rounds_of_settled rfl fun _ _ => .inr (.inr (.inr h))

/-- What can become of a fresh call: its first attempt may settle it; else a recovery is tried, and
if that works a second attempt settles it, which reads what the recovery has left on the desk. What
has been lent is changed by the recovery alone. -/
theorem rounds_cases (fresh : call.retried = false) (has : d.Has m) {a : Attempt ω}
    (sent : c.send net (o.reading d.toLent) (d.read m) call payload = a) :
    ((∀ r, a.outcome = .ok r → recovery = none ∨ r.reply.status ≠ 401 ∨ call.guarded = false) ∧
      ∃ d', d'.toLent = d.toLent ∧ c.rounds net o recovery m call payload d = (d', a.settled)) ∨
    ∃ r recover c' x d', a.outcome = .ok r ∧ recovery = some recover ∧ r.reply.status = 401 ∧
      call.guarded = true ∧ recover (a.client.close r.number) = (c', x) ∧
      d'.toLent = recover.amend (a.client.close r.number) d.toLent ∧
      c.rounds net o recovery m call payload d = (d', match x with
        | some f => (c', { a.refused with state := .failed }, .error f)
        | none => (c'.send net (o.reading d'.toLent)
            ((d.amended (recover.amend (a.client.close r.number))).read m) a.refused
            a.payload).settled) := by
  obtain ⟨within, same⟩ := attempt_spec net o m call payload d c
  rcases first : c.attempt net o m call payload d with ⟨d₁, a₁⟩
  rw [first] at within same
  obtain rfl : a₁ = a := same.trans sent
  by_cases stays : ∀ r, a₁.outcome = .ok r →
      recovery = none ∨ r.reply.status ≠ 401 ∨ call.guarded = false
  · refine .inl ⟨stays, d₁, within.lent, rounds_of_settled first fun r came => ?_⟩
    exact (stays r came).imp_right (Or.imp_right .inl)
  · obtain ⟨r, leaves⟩ := Classical.not_forall.mp stays
    obtain ⟨came, open_⟩ := Classical.not_imp.mp leaves
    obtain ⟨some_, refused, guarded⟩ : recovery ≠ none ∧ r.reply.status = 401 ∧
        call.guarded = true := by
      simpa only [not_or, Decidable.not_not, Bool.not_eq_false] using open_
    obtain ⟨recover, rfl⟩ := Option.ne_none_iff_exists'.mp some_
    -- The copies that the first attempt has made do not matter to the second one.
    have kept : Desk.Within (d.amended (recover.amend (a₁.client.close r.number)))
        (d₁.amended (recover.amend (a₁.client.close r.number))) :=
      ⟨congrArg (recover.amend (a₁.client.close r.number)) within.lent, within.copies⟩
    have turn := round_of_recovered recover first came refused guarded fresh
    rcases tried : recover (a₁.client.close r.number) with ⟨c', _ | f⟩
    · rw [tried] at turn
      obtain ⟨d', within', second⟩ := @rounds_of_retried ω net o (some recover) m a₁.refused
        a₁.payload (d₁.amended (recover.amend (a₁.client.close r.number))) c' rfl
      have lent := within'.lent.trans kept.lent
      refine .inr ⟨r, recover, c', none, d', came, rfl, refused, guarded, tried, lent, ?_⟩
      rw [rounds_of_again turn, second, kept.read has, within'.lent]
    · rw [tried] at turn
      exact .inr ⟨r, recover, c', some f, _, came, rfl, refused, guarded, tried, kept.lent,
        rounds_of_over turn⟩

end

/-! ### Calls without their desk -/

def runLent (net : Network ω) (o : Options ω) (recovery : Option (Recovery ω)) (headers : Headers)
    (call : Call) (payload : Payload) (c : Client ω) :
    Lent × Client ω × Call × Except Failure Received :=
  ((c.rounds net o recovery (o.laid headers).1 call payload (o.laid headers).2).1.toLent,
    (c.rounds net o recovery (o.laid headers).1 call payload (o.laid headers).2).2)

def run (net : Network ω) (o : Options ω) (recovery : Option (Recovery ω)) (headers : Headers)
    (call : Call) (payload : Payload) (c : Client ω) : Client ω × Call × Except Failure Received :=
  (c.runLent net o recovery headers call payload).2

def Attempt.left (o : Options ω) (headers : Headers) (recover : Recovery ω) (r : Received)
    (a : Attempt ω) : Lent :=
  recover.amend (a.client.close r.number) (o.laid headers).2.toLent

def resend (net : Network ω) (o : Options ω) (headers : Headers) (recover : Recovery ω)
    (r : Received) (a : Attempt ω) (c : Client ω) : Attempt ω :=
  c.send net (o.reading (a.left o headers recover r))
    (o.mapped headers (a.left o headers recover r)) a.refused a.payload

section
variable {net : Network ω} {o : Options ω} {recovery : Option (Recovery ω)} {headers : Headers}
  {call : Call} {payload : Payload} {c : Client ω}

theorem send_laid : c.send net (o.reading (o.laid headers).2.toLent)
    ((o.laid headers).2.read (o.laid headers).1) call payload =
    c.send net o headers call payload := by
  obtain ⟨_, same, method, stream⟩ := Options.laid_spec o headers
  rw [same, Options.reading, method, stream]

theorem runLent_cases (fresh : call.retried = false) :
    ((∀ r, (c.send net o headers call payload).outcome = .ok r → recovery = none ∨
        r.reply.status ≠ 401 ∨ call.guarded = false) ∧
      c.runLent net o recovery headers call payload =
        ((o.laid headers).2.toLent, (c.send net o headers call payload).settled)) ∨
    ∃ r recover c' x, (c.send net o headers call payload).outcome = .ok r ∧
      recovery = some recover ∧ r.reply.status = 401 ∧ call.guarded = true ∧
      recover ((c.send net o headers call payload).client.close r.number) = (c', x) ∧
      c.runLent net o recovery headers call payload =
        ((c.send net o headers call payload).left o headers recover r, match x with
          | some f =>
            (c', { (c.send net o headers call payload).refused with state := .failed }, .error f)
          | none => (c'.resend net o headers recover r
              (c.send net o headers call payload)).settled) := by
  obtain ⟨has, -⟩ := Options.laid_spec o headers
  rcases @rounds_cases ω net o recovery _ call payload _ c fresh has _ send_laid with
    ⟨stays, d', kept, ended⟩ | ⟨r, recover, c', x, d', came, chosen, refused, guarded, tried, lent,
      ended⟩
  · exact .inl ⟨stays, by rw [runLent, ended, kept]⟩
  · refine .inr ⟨r, recover, c', x, came, chosen, refused, guarded, tried, ?_⟩
    rw [runLent, ended]
    cases x with
    | some f => exact Prod.ext lent rfl
    | none =>
      dsimp only
      rw [lent, Options.read_amended]
      rfl

theorem run_cases (fresh : call.retried = false) :
    ((∀ r, (c.send net o headers call payload).outcome = .ok r → recovery = none ∨
        r.reply.status ≠ 401 ∨ call.guarded = false) ∧
      c.run net o recovery headers call payload =
        (c.send net o headers call payload).settled) ∨
    ∃ r recover c' x, (c.send net o headers call payload).outcome = .ok r ∧
      recovery = some recover ∧ r.reply.status = 401 ∧ call.guarded = true ∧
      recover ((c.send net o headers call payload).client.close r.number) = (c', x) ∧
      c.run net o recovery headers call payload = match x with
        | some f =>
          (c', { (c.send net o headers call payload).refused with state := .failed }, .error f)
        | none => (c'.resend net o headers recover r
            (c.send net o headers call payload)).settled := by
  rcases @runLent_cases ω net o recovery headers call payload c fresh with
    ⟨stays, ended⟩ | ⟨r, recover, c', x, came, chosen, refused, guarded, tried, ended⟩
  · exact .inl ⟨stays, congrArg Prod.snd ended⟩
  · exact .inr ⟨r, recover, c', x, came, chosen, refused, guarded, tried, congrArg Prod.snd ended⟩

theorem send_given : c.send net (o.reading (o.laid headers).2.toLent)
    (o.mapped headers (o.laid headers).2.toLent) call payload =
    c.send net o headers call payload := by
  have same : (o.laid headers).2.read (o.laid headers).1 =
      o.mapped headers (o.laid headers).2.toLent := o.read_amended headers id
  rw [← same, send_laid]

end

theorem fetchLent_eq (net : Network ω) (path : String) (o : Options ω) (c : Client ω) :
    c.fetchLent net path o =
      match c.start path with
      | .error e => (o.lent, c, .error e)
      | .ok call =>
        match o.body.encode o.headers false defaultChunkSize with
        | .error e => (o.lent, c, .error e)
        | .ok (payload, headers) =>
          let ran := c.runLent net.unstoppable { o with progress := none }
            (some (o.recovery.getD (refresh net))) headers call payload
          (ran.1, ran.2.1, ran.2.2.2) := by
  rw [fetchLent]
  cases c.start path with
  | error e => rfl
  | ok call =>
    dsimp only
    rw [Desk.encode_eq]
    cases o.body.encode o.headers false defaultChunkSize with
    | error e => rfl
    | ok ready => rfl

theorem fetch_eq (net : Network ω) (path : String) (o : Options ω) (c : Client ω) :
    c.fetch net path o =
      match c.start path with
      | .error e => (c, .error e)
      | .ok call =>
        match o.body.encode o.headers false defaultChunkSize with
        | .error e => (c, .error e)
        | .ok (payload, headers) =>
          ((c.run net.unstoppable { o with progress := none }
              (some (o.recovery.getD (refresh net))) headers call payload).1,
            (c.run net.unstoppable { o with progress := none }
              (some (o.recovery.getD (refresh net))) headers call payload).2.2) := by
  rw [fetch, fetchLent_eq]
  cases c.start path with
  | error e => rfl
  | ok call =>
    cases o.body.encode o.headers false defaultChunkSize with
    | error e => rfl
    | ok ready => rfl

def concluded (kind : ResultKind) (call : Call) :
    Except Failure Received → Call × Except Failure Outcome
  | .error f => ((transferFailure call f).1, .error (transferFailure call f).2)
  | .ok r =>
    (call, if isSuccess r.reply.status then (r.reply.result kind).map (Outcome.ofResult r)
      else .error (.rejected r.reply.status r.reply.reason))

theorem transferLent_eq (net : Network ω) (kind : ResultKind) (o : Options ω) (call : Call)
    (c : Client ω) :
    c.transferLent net kind o call =
      match o.body.encode o.headers true c.config.chunkSize with
      | .error e => (o.lent, c, call, .error e)
      | .ok (payload, headers) =>
        let ran := c.runLent net o o.recovery headers call payload
        (ran.1, ran.2.1, concluded kind ran.2.2.1 ran.2.2.2) := by
  rw [transferLent, Desk.encode_eq]
  cases o.body.encode o.headers true c.config.chunkSize with
  | error e => rfl
  | ok ready =>
    obtain ⟨payload, headers⟩ := ready
    simp only [Except.map, runLent]
    rcases c.rounds net o o.recovery (o.laid headers).1 call payload
      (o.laid headers).2 with ⟨d, c', call', f | r⟩
    · rfl
    · simp only [concluded]
      split
      · rfl
      · rfl

theorem transfer_eq (net : Network ω) (kind : ResultKind) (o : Options ω) (call : Call)
    (c : Client ω) {payload : Payload} {headers : Headers}
    (encoded : o.body.encode o.headers true c.config.chunkSize = .ok (payload, headers)) :
    c.transfer net kind o call = ((c.run net o o.recovery headers call payload).1,
      concluded kind (c.run net o o.recovery headers call payload).2.1
        (c.run net o o.recovery headers call payload).2.2) := by
  rw [transfer, transferLent_eq, encoded]
  rfl

theorem transfer_of_error (net : Network ω) (kind : ResultKind) {o : Options ω} (call : Call)
    {c : Client ω} {f : Failure}
    (failed : o.body.encode o.headers true c.config.chunkSize = .error f) :
    c.transfer net kind o call = (c, call, .error f) := by
  rw [transfer, transferLent_eq, failed]

theorem waited_eq (net : Network ω) (path : String) (o : Options ω) (c : Client ω) :
    c.waited net path o =
      match c.prepare path o with
      | .error f => (c, .error f)
      | .ok (kind, call) => ((c.transfer net kind o call).1, (c.transfer net kind o call).2.2) := by
  rw [waited, waitedLent]
  cases c.prepare path o with
  | error f => rfl
  | ok ready => rfl

end Client
end FileGate
