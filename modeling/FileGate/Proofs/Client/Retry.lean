import FileGate.Client.Rehearsal
import FileGate.Proofs.Client.Round
import FileGate.Proofs.Pattern.Anchored
import FileGate.Proofs.Tree.NormalForm

/-! The law of a fetch whose body is at hand as a whole. Whatever the network answers and whatever
the recovery does, such a fetch is sent once, or twice where a refusal was recovered from. -/
namespace FileGate

def Body.bytes? : Body → Option Bytes
  | nothing => some []
  | bytes b => some b
  | buffer b => some b
  | text s => some (Bytes.ofString s)
  | form fields => some (Utf8.encode (formText fields))
  | data _ => none
  | other _ => none

namespace Sent

def data : Sent → Bytes
  | nothing => []
  | bytes b => b
  | form _ => []
  | chunks received _ _ => received.flatten

def isComplete : Sent → Bool
  | chunks _ _ complete => complete
  | _ => true

end Sent

namespace Payload

def bytes? : Payload → Option Bytes
  | nothing => some []
  | bytes b => some b
  | buffer b => some b
  | upload _ => none

def sent : Payload → Sent
  | nothing => .nothing
  | bytes b => .bytes b
  | buffer b => .bytes b
  | upload _ => .nothing

theorem data_sent {p : Payload} {data : Bytes} (held : p.bytes? = some data) :
    p.sent.data = data := by
  cases p with
  | upload u => cases held
  | _ => cases held; rfl

end Payload

theorem Body.encode_whole {body : Body} {data : Bytes} (held : body.bytes? = some data)
    (h : Headers) (n : Int) :
    ∃ p h', body.encode h false n = .ok (p, h') ∧ p.bytes? = some data := by
  cases body with
  | data s => simp [bytes?] at held
  | other v => simp [bytes?] at held
  | _ => exact ⟨_, _, rfl, by simpa [bytes?, plain, Payload.bytes?] using held⟩

/-- A reply asks for Basic authentication if that is the first of the words, parted by single
spaces, of its challenge. -/
def AsksBasic (r : Reply) : Prop :=
  ∃ challenge, header? "WWW-Authenticate" r.headers = some challenge ∧
    (Text.splitAll ' ' challenge.toList).head? = some "Basic".toList

theorem Text.head?_splitAll (sep : Char) (s : List Char) :
    (splitAll sep s).head? = some (s.takeWhile (· != sep)) := by
  induction s with
  | nil => rfl
  | cons c s ih =>
    by_cases h : c = sep
    · simp [splitAll, h]
    · cases hs : splitAll sep s with
      | nil => exact absurd hs (splitAll_ne_nil sep s)
      | cons w ws =>
        rw [hs, List.head?_cons, Option.some.injEq] at ih
        simp [splitAll, h, hs, ih]

theorem basicRefusal_iff (r : Reply) : Client.basicRefusal r = true ↔ AsksBasic r := by
  rw [Client.basicRefusal, Authorization.isBasicChallenge, beq_iff_eq, AsksBasic]
  cases header? "WWW-Authenticate" r.headers with
  | none => simp [Authorization.challengeScheme]
  | some challenge =>
    have word (w : List Char) : String.ofList w = "Basic" ↔ w = "Basic".toList := by
      constructor
      · intro h
        rw [← h, String.toList_ofList]
      · intro h
        rw [h, String.ofList_toList]
    simp [Authorization.challengeScheme, Text.head?_splitAll, word]

namespace Client

variable {ω : Type}

theorem transmit_whole {p : Payload} {data : Bytes} (held : p.bytes? = some data)
    (net : Network ω) (progress : Option (Float → ω → ω × Option Failure)) (e : Exchange)
    (c : Client ω) (blank : e.sent = .nothing) :
    c.transmit net progress e p =
      ((c.answered net { e with sent := p.sent } data).1, p,
        (c.answered net { e with sent := p.sent } data).2) := by
  cases p with
  | nothing =>
    cases held
    have same : { e with sent := Payload.nothing.sent } = e := by rw [Payload.sent, ← blank]
    rw [same]
    rfl
  | bytes b => cases held; rfl
  | buffer b => cases held; rfl
  | upload u => simp [Payload.bytes?] at held

def ask (net : Network ω) (o : Options ω) (headers : Headers) (call : Call) (p : Payload)
    (data : Bytes) (c : Client ω) : Client ω × Except Failure Received :=
  c.answered net { exchangeOf o headers call c with sent := p.sent } data

theorem send_whole {p : Payload} {data : Bytes} (held : p.bytes? = some data) (net : Network ω)
    (o : Options ω) (headers : Headers) (call : Call) (c : Client ω) :
    c.send net.unstoppable o headers call p =
      ⟨(c.ask net o headers call p data).1, Call.sentOnce call, p,
        (c.ask net o headers call p data).2⟩ := by
  have going : net.unstoppable.stopped = fun _ => false := rfl
  have same : c.answered net.unstoppable { exchangeOf o headers call c with sent := p.sent } data =
    c.ask net o headers call p data := rfl
  rw [send_eq, going, if_neg Bool.false_ne_true, transmit_whole held _ _ _ c rfl, same]
  generalize c.ask net o headers call p data = a
  obtain ⟨c', f | r⟩ := a
  · rfl
  · simp [Attempt.after, going]

theorem settle_outcome (call call' : Call) (same : call.guarded = call'.guarded) (r : Received) :
    (settle call r).2 = (settle call' r).2 := by
  simp only [settle, same]
  split <;> rfl

theorem settle_of_guarded (call : Call) (guarded : call.guarded = true) (r : Received) :
    (settle call r).2 = .ok r := by
  simp [settle, guarded]

/-- What a fetch comes to, in terms of its sendings. Each goes by what the caller has lent at its
time. -/
def fetched (recover : Recovery ω) (guarded : Bool) (settled : Received → Except Failure Received)
    (send : Lent → Client ω → Client ω × Except Failure Received) (l : Lent) (c : Client ω) :
    Lent × Client ω × Except Failure Received :=
  match send l c with
  | (c₁, .error f) => (l, c₁, .error f)
  | (c₁, .ok r) =>
    if r.reply.status ≠ 401 ∨ guarded = false then (l, c₁, settled r)
    else
      let left := recover.amend (c₁.close r.number) l
      match recover (c₁.close r.number) with
      | (c₂, some f) => (left, c₂, .error f)
      | (c₂, none) => (left, send left c₂)

/-- A call whose attempts never stop, and leave the payload as it was, is so many sendings. -/
theorem run_of_sends {net : Network ω} {o : Options ω} {headers : Headers} {p : Payload}
    {send : Call → Lent → Client ω → Client ω × Except Failure Received}
    (sends : ∀ (call : Call) (l : Lent) (c : Client ω),
      c.send net (o.reading l) (o.mapped headers l) call p =
        ⟨(send call l c).1, Call.sentOnce call, p, (send call l c).2⟩) {call : Call}
    (resends : ∀ call', call'.url = call.url → call'.guarded = call.guarded →
      send call' = send call) (recover : Recovery ω) (fresh : call.retried = false)
    (lent : (o.laid headers).2.toLent = o.lent) (c : Client ω) :
    ((c.runLent net o (some recover) headers call p).1,
      (c.runLent net o (some recover) headers call p).2.1,
      (c.runLent net o (some recover) headers call p).2.2.2) =
    fetched recover call.guarded (fun r => (settle call r).2) (send call) o.lent c := by
  have first : c.send net o headers call p =
      ⟨(send call o.lent c).1, Call.sentOnce call, p, (send call o.lent c).2⟩ := by
    rw [← send_given, lent, sends]
  rcases ha : send call o.lent c with ⟨c₁, f | r⟩
  · rcases @runLent_cases ω net o (some recover) headers call p c fresh with
      ⟨-, ended⟩ | ⟨r, _, _, _, came, _⟩
    · rw [ended, Attempt.settled_error (f := f) (by rw [first, ha]), first, ha, lent]
      simp only [fetched, ha]
    · rw [first, ha] at came
      cases came
  · rcases @runLent_cases ω net o (some recover) headers call p c fresh with
      ⟨stays, ended⟩ | ⟨r', recover', c₂, x, came, chosen, refused, guarded, recovered, again⟩
    · have final := (stays r (by rw [first, ha])).resolve_left (by simp)
      rw [ended, Attempt.settled_ok (r := r) (by rw [first, ha]), first, ha, lent]
      simp only [fetched, ha, if_pos final]
      rw [settle_outcome (Call.sentOnce call) call rfl]
    · rw [first, ha] at came
      cases came
      cases chosen
      have open_ : ¬ (r.reply.status ≠ 401 ∨ call.guarded = false) := by
        simp [refused, guarded]
      rw [first, ha] at recovered
      rw [again, first, ha]
      simp only [fetched, ha, if_neg open_, recovered, Attempt.left, lent]
      cases x with
      | some f => rfl
      | none =>
        let refusedCall := Attempt.refused ⟨c₁, Call.sentOnce call, p, .ok r⟩
        have same : send refusedCall = send call := resends refusedCall rfl rfl
        dsimp only
        rw [resend, Attempt.left, lent, sends, same]
        rcases send call (recover.amend (c₁.close r.number) o.lent) c₂ with ⟨c₃, f | r'⟩
        · rfl
        · have final := settle_of_guarded (Call.sentOnce refusedCall) guarded r'
          exact congrArg (fun x => (_, c₃, x)) final

theorem run_whole {p : Payload} {data : Bytes} (held : p.bytes? = some data) (net : Network ω)
    (o : Options ω) (recover : Recovery ω) (headers : Headers) {call : Call}
    (fresh : call.retried = false) (lent : (o.laid headers).2.toLent = o.lent) (c : Client ω) :
    ((c.runLent net.unstoppable o (some recover) headers call p).1,
      (c.runLent net.unstoppable o (some recover) headers call p).2.1,
      (c.runLent net.unstoppable o (some recover) headers call p).2.2.2) =
    fetched recover call.guarded (fun r => (settle call r).2)
      (fun l c => c.ask net (o.reading l) (o.mapped headers l) call p data) o.lent c := by
  have resends (call' : Call) (url : call'.url = call.url) (closed : call'.guarded = call.guarded) :
      (fun (l : Lent) (c : Client ω) =>
        c.ask net (o.reading l) (o.mapped headers l) call' p data) =
        fun l c => c.ask net (o.reading l) (o.mapped headers l) call p data := by
    simp only [ask, exchangeOf, url, closed]
  exact run_of_sends (fun call l => send_whole held net (o.reading l) (o.mapped headers l) call)
    resends recover fresh lent c

theorem fetch_whole {path : String} {o : Options ω} {c : Client ω} {call : Call} {data : Bytes}
    (started : c.start path = .ok call) (fresh : call.retried = false)
    (held : o.body.bytes? = some data) (net : Network ω) :
    ∃ p headers, p.bytes? = some data ∧
      o.body.encode o.headers false defaultChunkSize = .ok (p, headers) ∧
      c.fetchLent net path o = fetched (o.recovery.getD (refresh net)) call.guarded
        (fun r => (settle call r).2)
        (fun l c => c.ask net (o.reading l) (o.mapped headers l) call p data) o.lent c := by
  obtain ⟨p, headers, encoded, whole⟩ := Body.encode_whole held o.headers defaultChunkSize
  refine ⟨p, headers, whole, encoded, ?_⟩
  rw [fetchLent_eq, started, encoded]
  exact run_whole whole net { o with progress := none } _ headers fresh
    (Options.laid_lent encoded) c

theorem fetch_idle {path : String} {o : Options ω} {c : Client ω} {call : Call} {data : Bytes}
    (started : c.start path = .ok call) (fresh : call.retried = false)
    (held : o.body.bytes? = some data) (net : Network ω)
    (idle : (o.recovery.getD (refresh net)).Idle) :
    ∃ p headers, o.body.encode o.headers false defaultChunkSize = .ok (p, headers) ∧
      c.fetch net path o = (fetched (o.recovery.getD (refresh net)) call.guarded
        (fun r => (settle call r).2) (fun _ c => c.ask net o headers call p data) o.lent c).2 := by
  obtain ⟨p, headers, -, encoded, fetches⟩ := fetch_whole started fresh held net
  refine ⟨p, headers, encoded, ?_⟩
  have same : o.reading o.lent = o := rfl
  rw [fetch, fetches]
  simp only [fetched, idle _ o.lent, same, Options.mapped_lent encoded]

/-! ### What a fetch does, event by event -/

inductive Event where
  | sent (request : Request) (came : Except Failure Received)
  /-- A reply was closed and a recovery tried, which left what had been lent like this. -/
  | recovered (closed : Nat) (failure : Option Failure) (left : Lent)

/-- A request comes to the network and is answered, which is noted; all else about the client stays
as it is. -/
structure Answers (net : Network ω) (q : Request) (c : Client ω) (x : Except Failure Received)
    (c' : Client ω) : Prop where
  answer : net.answer q c.world = (c'.world, x.map (·.reply))
  noted : ∃ e : Exchange, c'.journal = c.journal ++ [e] ∧
    (⟨e.method, e.url, e.headers, e.sent.data⟩ : Request) = q ∧
    e.answer = x.toOption.map (·.number)
  number : ∀ r, x = .ok r → r.number = c.replies ∧ c'.replies = c.replies + 1
  others : c' = { c with world := c'.world, replies := c'.replies, journal := c'.journal }

theorem answered_answers (net : Network ω) {e : Exchange} {data : Bytes} (sent : e.sent.data = data)
    (blank : e.answer = none) (c : Client ω) :
    Answers net ⟨e.method, e.url, e.headers, data⟩ c (c.answered net e data).2
      (c.answered net e data).1 := by
  subst sent
  rcases came : net.answer ⟨e.method, e.url, e.headers, e.sent.data⟩ c.world with ⟨w, f | r⟩
  · simp only [answered, came]
    exact ⟨came, ⟨e, rfl, rfl, blank⟩, fun r h => (by cases h), rfl⟩
  · simp only [answered, came]
    refine ⟨came, ⟨{ e with answer := some c.replies }, rfl, rfl, rfl⟩, fun r' h => ?_, rfl⟩
    cases h
    exact ⟨rfl, rfl⟩

/-- The events that lead a client, and what a call has been lent, from one state to another, in their
order. -/
inductive Course (net : Network ω) (recover : Recovery ω) :
    Lent → Client ω → List Event → Lent → Client ω → Prop where
  | over (l : Lent) (c : Client ω) : Course net recover l c [] l c
  | sent {l l' : Lent} {c c₁ c' : Client ω} {es : List Event} {q : Request}
      {x : Except Failure Received} (answers : Answers net q c x c₁)
      (rest : Course net recover l c₁ es l' c') : Course net recover l c (.sent q x :: es) l' c'
  | recovered {l l' : Lent} {c c' : Client ω} {es : List Event} (n : Nat)
      (rest : Course net recover (recover.amend (c.close n) l) (recover (c.close n)).1 es l' c') :
      Course net recover l c
        (.recovered n (recover (c.close n)).2 (recover.amend (c.close n) l) :: es) l' c'

/-- A request for what a fetch is about. Its headers are left open, as a token may change. -/
def Asks (url : String) (data : Bytes) (l : Lent) (q : Request) : Prop :=
  q.method = l.method ∧ q.url = url ∧ q.body = data

/-- The events of a fetch that has been lent this and sends what is asked for, and its outcome. -/
inductive Law (guarded : Bool) (asks : Lent → Request → Prop) (l : Lent) :
    List Event → Except Failure Received → Prop where
  | unanswered {q : Request} {f : Failure} (asked : asks l q) :
      Law guarded asks l [.sent q (.error f)] (.error f)
  | final {q : Request} {r : Received} (asked : asks l q)
      (stays : r.reply.status ≠ 401 ∨ guarded = false ∧ ¬ AsksBasic r.reply) :
      Law guarded asks l [.sent q (.ok r)] (.ok r)
  | basic {q : Request} {r : Received} (asked : asks l q) (refused : r.reply.status = 401)
      (free : guarded = false) (basic : AsksBasic r.reply) :
      Law guarded asks l [.sent q (.ok r)] (.error (.auth .basic))
  | unrecovered {q : Request} {r : Received} {f : Failure} {left : Lent} (asked : asks l q)
      (refused : r.reply.status = 401) (closed : guarded = true) :
      Law guarded asks l [.sent q (.ok r), .recovered r.number (some f) left] (.error f)
  | again {q q' : Request} {r : Received} {left : Lent} {x : Except Failure Received}
      (asked : asks l q) (refused : r.reply.status = 401) (closed : guarded = true)
      (asked' : asks left q') :
      Law guarded asks l [.sent q (.ok r), .recovered r.number none left, .sent q' x] x

theorem Course.ask {net : Network ω} {recover : Recovery ω} {o : Options ω} {headers : Headers}
    {call : Call} {p : Payload} {data : Bytes} {l l' : Lent} {c c₁ c' : Client ω}
    {x : Except Failure Received} {es : List Event} (held : p.bytes? = some data)
    (asked : c.ask net (o.reading l) (o.mapped headers l) call p data = (c₁, x))
    (rest : Course net recover l c₁ es l' c') :
    ∃ q, Asks call.url data l q ∧ Course net recover l c (.sent q x :: es) l' c' := by
  let e : Exchange :=
    { exchangeOf (o.reading l) (o.mapped headers l) call c with sent := p.sent }
  have answers := answered_answers net (e := e) (Payload.data_sent held) rfl c
  have answer : c.answered net e data = (c₁, x) := asked
  rw [answer] at answers
  exact ⟨_, ⟨rfl, rfl, rfl⟩, .sent answers rest⟩

theorem Course.recovery {net : Network ω} {recover : Recovery ω} {l l' : Lent}
    {c c₁ c' : Client ω} {n : Nat} {x : Option Failure} {es : List Event}
    (recovered : recover (c.close n) = (c₁, x))
    (rest : Course net recover (recover.amend (c.close n) l) c₁ es l' c') :
    Course net recover l c (.recovered n x (recover.amend (c.close n) l) :: es) l' c' := by
  have step := @Course.recovered ω net recover l l' c c' es n
  rw [recovered] at step
  exact step rest

theorem fetched_law {p : Payload} {data : Bytes} (held : p.bytes? = some data) (net : Network ω)
    (recover : Recovery ω) (o : Options ω) (headers : Headers) (call : Call) (l : Lent)
    (c : Client ω) :
    let y := fetched recover call.guarded (fun r => (settle call r).2)
      (fun l c => c.ask net (o.reading l) (o.mapped headers l) call p data) l c
    ∃ events, Course net recover l c events y.1 y.2.1 ∧
      Law call.guarded (Asks call.url data) l events y.2.2 := by
  intro y
  rcases first : c.ask net (o.reading l) (o.mapped headers l) call p data with ⟨c₁, f | r⟩
  · obtain ⟨q, asked, course⟩ := Course.ask held first (.over l c₁)
    simp only [y, fetched, first]
    exact ⟨_, course, .unanswered asked⟩
  by_cases final : r.reply.status ≠ 401 ∨ call.guarded = false
  · obtain ⟨q, asked, course⟩ := Course.ask held first (.over l c₁)
    simp only [y, fetched, first, if_pos final]
    refine ⟨_, course, ?_⟩
    by_cases basic : r.reply.status = 401 ∧ call.guarded = false ∧ AsksBasic r.reply
    · obtain ⟨refused, free, asks⟩ := basic
      have settled : (settle call r).2 = .error (.auth .basic) := by
        simp [settle, refused, free, (basicRefusal_iff r.reply).mpr asks]
      rw [settled]
      exact .basic asked refused free asks
    · have settled : (settle call r).2 = .ok r := by
        rw [settle, if_neg]
        simpa [basicRefusal_iff, and_assoc] using basic
      rw [settled]
      apply Law.final asked
      by_cases refused : r.reply.status = 401
      · have free := final.resolve_left (fun other => other refused)
        exact .inr ⟨free, fun asks => basic ⟨refused, free, asks⟩⟩
      · exact .inl refused
  · have closed : r.reply.status = 401 ∧ call.guarded = true := by
      rw [not_or, Bool.not_eq_false, Decidable.not_not] at final
      exact final
    simp only [y, fetched, first, if_neg final]
    rcases recovered : recover (c₁.close r.number) with ⟨c₂, _ | f⟩
    · rcases second : c₂.ask net (o.reading (recover.amend (c₁.close r.number) l))
        (o.mapped headers (recover.amend (c₁.close r.number) l)) call p data with ⟨c₃, x⟩
      obtain ⟨q', asked', last⟩ := Course.ask held second (.over _ c₃)
      obtain ⟨q, asked, course⟩ := Course.ask held first (Course.recovery recovered last)
      simp only [second]
      exact ⟨_, course, .again asked closed.1 closed.2 asked'⟩
    · obtain ⟨q, asked, course⟩ := Course.ask held first (Course.recovery recovered (.over _ c₂))
      exact ⟨_, course, .unrecovered asked closed.1 closed.2⟩

/-- A fetch of a body that is at hand as a whole keeps the law, its recovery being the one it is
given or the renewal of the tokens. -/
theorem fetch_law (net : Network ω) {path : String} {o : Options ω} {data : Bytes} {c : Client ω}
    (absolute : isAbsolute path = true) (held : o.body.bytes? = some data)
    (usable : c.config.Usable) :
    ∃ guarded url events, c.config.requiresAuthorization path = .ok guarded ∧
      c.config.urlFor path.toList = .ok url ∧
      Course net (o.recovery.getD (refresh net)) o.lent c events (c.fetchLent net path o).1
        (c.fetch net path o).1 ∧
      Law guarded (Asks url data) o.lent events (c.fetch net path o).2 := by
  rcases start_cases absolute with ⟨f, broken, -⟩ | ⟨guarded, url, rule, address, started⟩
  · exact absurd usable broken
  · obtain ⟨p, headers, whole, -, fetches⟩ := fetch_whole started rfl held net
    obtain ⟨events, course, law⟩ := fetched_law whole net (o.recovery.getD (refresh net)) o headers
      { path, url, guarded } o.lent c
    rw [fetch, fetches]
    exact ⟨guarded, url, events, rule, address, course, law⟩

def refusedOnce : Client (List Line) :=
  { config := {}, credentials := .cookies, entries := [],
    world := [.reply { status := 401 }, .reply { status := 200 }] }

def putText : Options (List Line) :=
  { method := "PUT", body := .text "x", recovery := some { act := fun c => (c, none) } }

theorem fetch_law_refusedOnce :
    isAbsolute "/api/v1/files/a" = true ∧ putText.body.bytes? = some [120] ∧
    refusedOnce.config.Usable ∧
    ∃ q q' r x, Course Line.network { act := fun c => (c, none) } putText.lent refusedOnce
        [.sent q (.ok r), .recovered r.number none putText.lent, .sent q' x]
        (refusedOnce.fetchLent Line.network "/api/v1/files/a" putText).1
        (refusedOnce.fetch Line.network "/api/v1/files/a" putText).1 ∧
      Asks "http://127.0.0.1:8080/api/v1/files/a" [120] putText.lent q ∧
      Asks "http://127.0.0.1:8080/api/v1/files/a" [120] putText.lent q' ∧
      r.reply.status = 401 ∧ x = .ok ⟨{ status := 200 }, 1⟩ ∧
      (refusedOnce.fetch Line.network "/api/v1/files/a" putText).1.journal.length = 2 := by
  have absolute : isAbsolute "/api/v1/files/a" = true := by decide
  have held : putText.body.bytes? = some [120] := by decide
  refine ⟨absolute, held, Config.default_usable, ?_⟩
  obtain ⟨guarded, url, events, rule, address, course, law⟩ :=
    fetch_law Line.network absolute held (c := refusedOnce) Config.default_usable
  have closed : guarded = true := by
    have needed := PathRule.requiresAuthorization_default "/api/v1/files/a"
    exact Except.ok.inj (rule.symm.trans needed)
  have there : url = "http://127.0.0.1:8080/api/v1/files/a" :=
    Except.ok.inj (address.symm.trans (Config.urlFor_default _))
  have granted : (refusedOnce.fetch Line.network "/api/v1/files/a" putText).2.toOption =
      some ⟨{ status := 200 }, 1⟩ := by decide +kernel
  have noted : (refusedOnce.fetch Line.network "/api/v1/files/a" putText).1.journal.length = 2 := by
    decide +kernel
  subst closed there
  -- The outcome has the number 1, so that it is no first reply.
  generalize (refusedOnce.fetch Line.network "/api/v1/files/a" putText).2 = x at law granted
  cases law with
  | unanswered asked => cases granted
  | basic asked refused free basic => cases granted
  | unrecovered asked refused closed => cases granted
  | final asked stays =>
    cases granted
    cases course with
    | sent answers rest => cases (answers.number _ rfl).1
  | again asked refused closed asked' =>
    cases course with
    | sent answers rest =>
      have left := rest
      cases rest
      refine ⟨_, _, _, _, .sent answers left, asked, asked', refused, ?_, noted⟩
      cases x with
      | error f => cases granted
      | ok r => exact congrArg Except.ok (Option.some.inj granted)

def misread : Client (List Line) :=
  { refusedOnce with config := { rule := { protectedPattern := .text "(" } } }

def deleting : Recovery (List Line) where
  act c := (c, none)
  amend _ l := { l with method := "DELETE" }

/-- What cannot be told to be protected is not sent at all; and what is sent again is what the
options say by then. -/
theorem fetch_outside_law :
    (isAbsolute "/a" = true ∧ misread.config.requiresAuthorization "/a" = .error .badPattern ∧
      misread.fetch Line.network "/a" putText = (misread, .error .badPattern)) ∧
    (isAbsolute "/api/v1/files/a" = true ∧ putText.body.bytes? = some [120] ∧
      (refusedOnce.fetch Line.network "/api/v1/files/a"
          { putText with recovery := some deleting }).1.journal.map (·.method) =
        ["PUT", "DELETE"]) :=
  ⟨⟨rfl, rfl, rfl⟩, rfl, rfl, by decide +kernel⟩

end Client
end FileGate
