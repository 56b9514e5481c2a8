import FileGate.Proofs.Client.Errands
import FileGate.Proofs.Client.Rename

/-! What a client's note about its login says. It tells the last answer to a login, a logout or a
renewal that was refused, whatever else the client did and however that ended. -/
namespace FileGate

/-! ### The note and the answers -/

/-- What the client posts to the login's own addresses. -/
inductive Flow where
  | login (user password : Value)
  | refresh
  | logout

/-- What an answer may say about the login. -/
inductive Turn where
  | loggedIn
  | loggedOut
  -- by a renewal that was refused
  | ended
  deriving DecidableEq

namespace Turn

def apply (m : Session.Entries) : Turn → Session.Entries
  | loggedIn => Session.mark m
  | loggedOut => Session.clear m
  | ended => Session.clear m

theorem isLoggedIn_apply (m : Session.Entries) (t : Turn) :
    Session.isLoggedIn (t.apply m) = decide (t = .loggedIn) := by
  have marked : Session.isLoggedIn (Session.mark m) = true := by
    rw [Session.isLoggedIn, Session.mark, Assoc.get?_put_self]
    rfl
  have cleared : Session.isLoggedIn (Session.clear m) = false := by
    rw [Session.isLoggedIn, Session.clear, Assoc.get?_erase_self]
    rfl
  cases t with
  | loggedIn => exact marked
  | loggedOut => exact cleared
  | ended => exact cleared

theorem get?_apply {key : String} (other : key ≠ Session.flagKey) (m : Session.Entries) (t : Turn) :
    Assoc.get? key (t.apply m) = Assoc.get? key m := by
  cases t with
  | loggedIn => exact Assoc.get?_put_of_ne other.symm _ m
  | loggedOut => exact Assoc.get?_erase_of_ne other.symm m
  | ended => exact Assoc.get?_erase_of_ne other.symm m

theorem isLoggedIn_foldl (turns : List Turn) (m : Session.Entries) :
    Session.isLoggedIn (turns.foldl apply m) = true ↔
      turns.getLast? = some .loggedIn ∨ turns = [] ∧ Session.isLoggedIn m = true := by
  -- The last turn writes over what those before it left, so the list is taken apart at its end.
  rcases List.eq_nil_or_concat turns with rfl | ⟨before, last, rfl⟩
  · simp
  · simp [List.foldl_append, isLoggedIn_apply]

theorem get?_foldl {key : String} (other : key ≠ Session.flagKey) (turns : List Turn)
    (m : Session.Entries) : Assoc.get? key (turns.foldl apply m) = Assoc.get? key m := by
  induction turns generalizing m with
  | nil => rfl
  | cons t turns ih => exact (ih (t.apply m)).trans (get?_apply other m t)

end Turn

theorem Session.isLoggedIn_iff (m : Session.Entries) :
    Session.isLoggedIn m = true ↔ ∃ v, v ≠ .null ∧ Assoc.get? Session.flagKey m = some v := by
  rw [isLoggedIn]
  generalize Assoc.get? flagKey m = x
  rcases x with _ | v
  · simp [present]
  · cases v <;> simp [present]

/-! ### Flows -/

namespace Flow

def accepted : Flow → Option Turn
  | login _ _ => some .loggedIn
  | refresh => none
  | logout => some .loggedOut

def refused : Flow → Option Turn
  | login _ _ => none
  | refresh => some .ended
  | logout => none

variable {ω : Type}

def perform (net : Network ω) (c : Client ω) : Flow → Client ω × Option Failure
  | login user password => c.login net user password
  | refresh => c.refresh net
  | logout => c.logout net

def path (c : Client ω) : Flow → Value
  | login _ _ => c.config.tokenPath
  | refresh => c.config.tokenPath
  | logout => c.config.revokePath

def fields (c : Client ω) : Flow → List (String × Value)
  | login user password =>
    [("grant_type", .text "password"), ("username", user), ("password", password),
      ("cookie_path", c.config.cookiePath)]
  | refresh =>
    [("grant_type", .text "refresh_token"), ("refresh_token", c.refreshToken),
      ("cookie_path", c.config.cookiePath)]
  | logout => [("token", c.refreshToken), ("hint", .text "access_token")]

def kind : Flow → AuthKind
  | login _ _ => .login
  | refresh => .tokenRefresh
  | logout => .logout

end Flow

structure Posting where
  flow : Flow
  came : Except Failure Reply

namespace Posting

def turn? (p : Posting) : Option Turn :=
  match p.came with
  | .ok r => if isSuccess r.status then p.flow.accepted else p.flow.refused
  | .error _ => none

def turns (log : List Posting) : List Turn := log.filterMap turn?

end Posting

def Flow.posting {ω : Type} (net : Network ω) (c : Client ω) (flow : Flow) : Posting :=
  ⟨flow, (c.post net (flow.path c) (flow.fields c)).2⟩

namespace Client

variable {ω : Type}

theorem answered_entries (net : Network ω) (e : Exchange) (body : Bytes) (c : Client ω) :
    (c.answered net e body).1.entries = c.entries := by
  rcases h : net.answer ⟨e.method, e.url, e.headers, body⟩ c.world with ⟨w, f | r⟩
  · simp [answered, h]
  · simp [answered, h]

theorem post_entries (net : Network ω) (path : Value) (fields : List (String × Value))
    (c : Client ω) : (c.post net path fields).1.entries = c.entries := by
  rw [post]
  cases c.config.urlFor path.display with
  | error f => rfl
  | ok url => exact answered_entries net _ _ c

theorem exchange_entries (net : Network ω) (path : Value) (fields : List (String × Value))
    (kind : AuthKind) (accepted refused : Session.Entries → Session.Entries) (c : Client ω) :
    (c.exchange net path fields kind accepted refused).1.entries =
      match (c.post net path fields).2 with
      | .ok r => if isSuccess r.status then accepted c.entries else refused c.entries
      | .error _ => c.entries := by
  have same := post_entries net path fields c
  rcases posted : c.post net path fields with ⟨c', f | r⟩
  · rw [posted] at same
    simp only [exchange, posted]
    exact same
  · rw [posted] at same
    simp only [exchange, posted, ← same]
    split
    · rfl
    · rfl

theorem transmit_entries (net : Network ω) (progress : Option (Float → ω → ω × Option Failure))
    (e : Exchange) (p : Payload) (c : Client ω) :
    (c.transmit net progress e p).1.entries = c.entries := by
  cases p with
  | nothing => exact answered_entries net e [] c
  | bytes b => exact answered_entries net _ b c
  | buffer b => exact answered_entries net _ b c
  | upload u =>
    rcases h : u.pass ⟨net.stopped, net.arrive, progress⟩ c.world with ⟨q, u'⟩
    cases failed : q.failure with
    | some f => simp only [transmit, h, failed]
    | none =>
      simp only [transmit, h, failed]
      exact answered_entries net _ q.received.flatten _

theorem send_entries (net : Network ω) (o : Options ω) (headers : Headers) (call : Call)
    (p : Payload) (c : Client ω) : (c.send net o headers call p).client.entries = c.entries := by
  rw [send_eq]
  split
  · rfl
  · have same := transmit_entries net o.progress (exchangeOf o headers call c) p c
    rcases h : c.transmit net o.progress (exchangeOf o headers call c) p with ⟨c', p', f | r⟩
    · rw [h] at same
      exact same
    · rw [h] at same
      simp only [Attempt.after]
      split
      · exact same
      · exact same

end Client

namespace Flow

variable {ω : Type}

theorem perform_eq (net : Network ω) (c : Client ω) (flow : Flow) :
    flow.perform net c = c.exchange net (flow.path c) (flow.fields c) flow.kind
      (fun m => flow.accepted.elim m (Turn.apply m))
      (fun m => flow.refused.elim m (Turn.apply m)) := by
  cases flow <;> rfl

theorem perform_entries (net : Network ω) (c : Client ω) (flow : Flow) :
    (flow.perform net c).1.entries =
      (flow.posting net c).turn?.elim c.entries (Turn.apply c.entries) := by
  rw [perform_eq, Client.exchange_entries, posting, Posting.turn?]
  cases (c.post net (flow.path c) (flow.fields c)).2 with
  | error f => rfl
  | ok r =>
    dsimp only
    split
    · rfl
    · rfl

end Flow

/-! ### What a client does -/

/-- The postings that have brought a client from one state to another. What else it did has left its
entries alone. -/
inductive Goes {ω : Type} (net : Network ω) : Client ω → List Posting → Client ω → Prop where
  | stay (c : Client ω) : Goes net c [] c
  | posted {c c' : Client ω} {log : List Posting} (flow : Flow)
      (rest : Goes net (flow.perform net c).1 log c') : Goes net c (flow.posting net c :: log) c'
  | aside {c c₁ c' : Client ω} {log : List Posting} (same : c₁.entries = c.entries)
      (rest : Goes net c₁ log c') : Goes net c log c'

section
variable {ω : Type} {net : Network ω} {c c₁ c' : Client ω} {log log' : List Posting}

theorem Goes.trans (first : Goes net c log c₁) (second : Goes net c₁ log' c') :
    Goes net c (log ++ log') c' := by
  induction first with
  | stay c => exact second
  | posted flow rest ih => exact .posted flow (ih second)
  | aside same rest ih => exact .aside same (ih second)

theorem Goes.of_entries (same : c'.entries = c.entries) : Goes net c [] c' := .aside same (.stay c')

theorem Goes.entries (goes : Goes net c log c') :
    c'.entries = (Posting.turns log).foldl Turn.apply c.entries := by
  induction goes with
  | stay c => rfl
  | @posted c c' log flow rest ih =>
    rw [ih, flow.perform_entries]
    cases said : (flow.posting net c).turn? with
    | none => rw [Posting.turns, Posting.turns, List.filterMap_cons_none said]; rfl
    | some t => rw [Posting.turns, Posting.turns, List.filterMap_cons_some said]; rfl
  | aside same rest ih => rw [ih, same]

end

/-- A recovery of a caller's own. It may do anything that leaves the entries alone, and it may post;
its log says what it posted. -/
structure Callback {ω : Type} (net : Network ω) where
  act : Recovery ω
  log : Client ω → List Posting
  goes : ∀ c, Goes net c (log c) (act c).1

def Callback.renew {ω : Type} (net : Network ω) : Callback net where
  act := Client.refresh net
  log c := [Flow.refresh.posting net c]
  goes _ := .posted .refresh (.stay _)

namespace Client

variable {ω : Type}

def Attempt.refusal? (a : Attempt ω) : Option (Client ω) :=
  match a.outcome with
  | .ok r => if r.reply.status = 401 ∧ a.call.guarded = true then some (a.client.close r.number)
      else none
  | .error _ => none

section
variable {net : Network ω} {o : Options ω} {recovery : Option (Recovery ω)} {headers : Headers}
  {call : Call} {payload : Payload} {c : Client ω}

/-- Of all that a call does only its recovery can change the entries. -/
theorem run_entries (fresh : call.retried = false) :
    (c.run net o recovery headers call payload).1.entries =
      match recovery, (c.send net o headers call payload).refusal? with
      | some recover, some c₁ => (recover c₁).1.entries
      | _, _ => c.entries := by
  have sent := send_entries net o headers call payload c
  have guarded := (@send_call ω net o headers call payload c).2
  rcases @run_cases ω net o recovery headers call payload c fresh with
    ⟨stays, once⟩ | ⟨r, recover, c', x, came, rfl, refused, closed, recovered, again⟩
  · -- There was no refusal, or there is no recovery to hand it to.
    rw [once, settled_client, sent]
    cases recovery with
    | none => rfl
    | some recover =>
      have none_ : (c.send net o headers call payload).refusal? = none := by
        rw [Attempt.refusal?]
        cases came : (c.send net o headers call payload).outcome with
        | error f => rfl
        | ok r =>
          have free := (stays r came).resolve_left (by simp)
          rw [← guarded] at free
          exact if_neg fun h => free.elim (· h.1) (by simp [h.2])
      rw [none_]
  · have handed : (c.send net o headers call payload).refusal? =
        some ((c.send net o headers call payload).client.close r.number) := by
      rw [Attempt.refusal?, came]
      exact if_pos ⟨refused, guarded.trans closed⟩
    rw [handed, again]
    simp only [recovered]
    cases x with
    | some f => rfl
    | none => rw [settled_client, resend, send_entries]

end

end Client

namespace Way

variable {ω : Type}

def refusal? (w : Way) (net : Network ω) (o : Options ω) (call : Call) (c : Client ω) :
    Option (Client ω) :=
  match w.encode c.config o with
  | .ok (p, headers) => (w.attempt net o headers call p c).refusal?
  | .error _ => none

theorem refusal?_entries {w : Way} {net : Network ω} {o : Options ω} {call : Call} {c c₁ : Client ω}
    (refused : w.refusal? net o call c = some c₁) : c₁.entries = c.entries := by
  rw [refusal?] at refused
  split at refused
  · rw [Client.Attempt.refusal?] at refused
    split at refused
    · split at refused
      · cases refused
        exact Client.send_entries _ _ _ _ _ _
      · cases refused
    · cases refused
  · cases refused

variable {net : Network ω}

def log (w : Way) (callback : Option (Callback net)) (o : Options ω) (call : Call)
    (c : Client ω) : List Posting :=
  match callback, w.refusal? net o call c with
  | some callback, some c₁ => callback.log c₁
  | _, _ => []

theorem goes (w : Way) {path : String} {o : Options ω} {call : Call} {c : Client ω}
    (started : c.start path = .ok call) {callback : Option (Callback net)}
    (chosen : w.recovery net o = callback.map (·.act)) :
    Goes net c (w.log callback o call c) (w.result net path o call c) := by
  cases encoded : w.encode c.config o with
  | error f =>
    have none_ : w.refusal? net o call c = none := by rw [refusal?, encoded]
    simp only [result_of_error started encoded, log, none_]
    exact .stay c
  | ok ready =>
    obtain ⟨p, headers⟩ := ready
    have entries := @Client.run_entries ω (w.network net) (w.options o) (w.recovery net o) headers
      call p c (Client.fresh_of_start started)
    have same : (c.send (w.network net) (w.options o) headers call p).refusal? =
        w.refusal? net o call c := by
      rw [refusal?, encoded]
      rfl
    rw [← result_eq_run w net started encoded, chosen, same] at entries
    cases callback with
    | none => exact .of_entries entries
    | some callback =>
      cases refused : w.refusal? net o call c with
      | none =>
        rw [refused] at entries
        simp only [log, refused]
        exact .of_entries entries
      | some c₁ =>
        -- The attempts before and after the recovery stand aside.
        rw [refused] at entries
        simp only [log, refused]
        have whole := (callback.goes c₁).trans (.of_entries entries)
        rw [List.append_nil] at whole
        exact .aside (refusal?_entries refused) whole

end Way

def Options.calling {ω : Type} {net : Network ω} (callback : Option (Callback net))
    (o : Options ω) : Options ω :=
  { o with recovery := callback.map (·.act) }

namespace Client

variable {ω : Type} {net : Network ω}

def fetchLog (callback : Callback net) (path : String) (o : Options ω) (c : Client ω) :
    List Posting :=
  match c.start path with
  | .ok call => Way.fetch.log (some callback) o call c
  | .error _ => []

def fetchFileLog (callback : Callback net) (path : List Char) (o : Options ω) (c : Client ω) :
    List Posting :=
  match c.filePath path with
  | .ok p => c.fetchLog callback p o
  | .error _ => []

def waitedLog (callback : Option (Callback net)) (path : String) (o : Options ω) (c : Client ω) :
    List Posting :=
  match c.prepare path o with
  | .ok (kind, call) => (Way.transfer kind).log callback o call c
  | .error _ => []

variable {path : String} {o : Options ω} {c : Client ω}

theorem fetch_goes {callback : Callback net}
    (chosen : o.recovery.getD (refresh net) = callback.act) :
    Goes net c (c.fetchLog callback path o) (c.fetch net path o).1 := by
  cases started : c.start path with
  | error f =>
    simp only [fetchLog, fetch_eq, started]
    exact .stay c
  | ok call =>
    simp only [fetchLog, started]
    have all : Way.fetch.recovery net o = (some callback).map (·.act) := congrArg some chosen
    exact Way.fetch.goes started all

theorem fetchFile_goes {path : List Char} {callback : Callback net}
    (chosen : o.recovery.getD (refresh net) = callback.act) :
    Goes net c (c.fetchFileLog callback path o) (c.fetchFile net path o).1 := by
  cases named : c.filePath path with
  | error f =>
    simp only [fetchFileLog, fetchFile, named]
    exact .stay c
  | ok p =>
    simp only [fetchFileLog, fetchFile, named]
    exact fetch_goes chosen

theorem waited_goes {callback : Option (Callback net)}
    (chosen : o.recovery = callback.map (·.act)) :
    Goes net c (c.waitedLog callback path o) (c.waited net path o).1 := by
  cases prepared : c.prepare path o with
  | error f =>
    simp only [waitedLog, waited_eq, prepared]
    exact .stay c
  | ok ready =>
    simp only [waitedLog, waited_eq, prepared]
    exact (Way.transfer ready.1).goes (start_of_prepare prepared) chosen

end Client

/-! ### Runs -/

/-- What a client can be asked to do, a transfer being waited for. -/
inductive Deed {ω : Type} (net : Network ω) where
  | post (flow : Flow)
  | fetch (path : String) (o : Options ω) (callback : Option (Callback net))
  | transfer (path : String) (o : Options ω) (callback : Option (Callback net))
  | mkdir (path : String)
  | remove (path : String) (recursive : Bool)
  | rename (source target : String)
  | upload (path : String) (body : Body) (progress : Option (Float → ω → ω × Option Failure))
    (callback : Option (Callback net))

namespace Deed

variable {ω : Type} {net : Network ω}

def perform (c : Client ω) : Deed net → Client ω
  | post flow => (flow.perform net c).1
  | fetch path o callback => (c.fetch net path (o.calling callback)).1
  | transfer path o callback => (c.waited net path (o.calling callback)).1
  | mkdir path => (c.mkdir net path).1
  | remove path recursive => (c.remove net path recursive).1
  | rename source target => (c.rename net source target).1
  | upload path body progress callback =>
    (c.upload net path.toList body progress (callback.map (·.act))).1

def log (c : Client ω) : Deed net → List Posting
  | post flow => [flow.posting net c]
  | fetch path o callback => c.fetchLog (callback.getD (.renew net)) path (o.calling callback)
  | transfer path o callback => c.waitedLog callback path (o.calling callback)
  | mkdir path => c.fetchFileLog (.renew net) path.toList (Errand.mkdir.options net)
  | remove path recursive =>
    c.fetchFileLog (.renew net) path.toList ((Errand.remove recursive).options net)
  | rename source target =>
    match ensureAbsolute source with
    | .error _ => []
    | .ok _ => c.fetchFileLog (.renew net) (Client.before source.toList)
      (Client.moveOptions (MoveAction.write (Path.name source.toList) target.toList))
  | upload path body progress callback =>
    match c.filePath path.toList with
    | .error _ => []
    | .ok p => c.waitedLog (some (callback.getD (.renew net))) p
      (Client.uploadOptions net body progress (callback.map (·.act)))

theorem act_getD (callback : Option (Callback net)) :
    (callback.map (·.act)).getD { act := Client.refresh net } =
      (callback.getD (.renew net)).act := by
  cases callback <;> rfl

theorem goes (c : Client ω) (deed : Deed net) : Goes net c (deed.log c) (deed.perform c) := by
  cases deed with
  | post flow => exact .posted flow (.stay _)
  | fetch path o callback => exact Client.fetch_goes (act_getD callback)
  | transfer path o callback => exact Client.waited_goes rfl
  | mkdir path => exact Client.fetchFile_goes rfl
  | remove path recursive => exact Client.fetchFile_goes rfl
  | rename source target =>
    cases absolute : ensureAbsolute source with
    | error f =>
      simp only [log, perform, Client.rename, absolute]
      exact .stay c
    | ok _ =>
      simp only [log, perform, Client.rename, absolute]
      exact Client.fetchFile_goes rfl
  | upload path body progress callback =>
    cases named : c.filePath path.toList with
    | error f =>
      simp only [log, perform, Client.upload, named]
      exact .stay c
    | ok p =>
      simp only [log, perform, Client.upload, named]
      exact Client.waited_goes (congrArg some (act_getD callback))

def performAll (c : Client ω) (deeds : List (Deed net)) : Client ω := deeds.foldl perform c

def logAll (c : Client ω) : List (Deed net) → List Posting
  | [] => []
  | deed :: deeds => deed.log c ++ logAll (deed.perform c) deeds

theorem goesAll (c : Client ω) (deeds : List (Deed net)) :
    Goes net c (logAll c deeds) (performAll c deeds) := by
  induction deeds generalizing c with
  | nil => exact .stay c
  | cons deed deeds ih => exact (deed.goes c).trans (ih (deed.perform c))

/-- After any deeds the client takes itself to be logged in exactly if the last of all answers that
told anything about the login was the success of a login, or none did and a login was noted before.
Nothing else that it remembers is changed. -/
theorem isLoggedIn_performAll (c : Client ω) (deeds : List (Deed net)) :
    (Session.isLoggedIn (performAll c deeds).entries = true ↔
      (Posting.turns (logAll c deeds)).getLast? = some .loggedIn ∨
      Posting.turns (logAll c deeds) = [] ∧
        ∃ v, v ≠ .null ∧ Assoc.get? Session.flagKey c.entries = some v) ∧
    ∀ key, key ≠ Session.flagKey →
      Assoc.get? key (performAll c deeds).entries = Assoc.get? key c.entries := by
  rw [(goesAll c deeds).entries]
  refine ⟨?_, fun key other => Turn.get?_foldl other _ _⟩
  rw [Turn.isLoggedIn_foldl, Session.isLoggedIn_iff]

def callback (deeds : List (Deed net)) : Callback net where
  act := { act := fun c => (performAll c deeds, none) }
  log c := logAll c deeds
  goes c := goesAll c deeds

def expecting (replies : List Int) : Client (List Line) :=
  { config := {}, credentials := .cookies, entries := [("theme", .text "dark")]
    world := replies.map fun status => .reply { status } }

/-- A file is asked for, and after a refusal there is another login; later there is a refusal that
the tokens cannot be renewed after. -/
def loginsAndRefusals : List (Deed Line.network) :=
  let login := Flow.login (.text "u") (.text "p")
  [.post login, .fetch "/api/v1/files/a" {} (some (callback [.post login])),
    .remove "/a" true, .fetch "/api/v1/auth/token" {} none]

theorem isLoggedIn_performAll_loginsAndRefusals :
    let c := expecting [200, 401, 200, 404, 401, 400, 200]
    Posting.turns (logAll c loginsAndRefusals) = [.loggedIn, .loggedIn, .ended] ∧
    Session.isLoggedIn (performAll c loginsAndRefusals).entries = false ∧
    Assoc.get? "theme" (performAll c loginsAndRefusals).entries = some (.text "dark") := by
  intro c
  have turns : Posting.turns (logAll c loginsAndRefusals) = [.loggedIn, .loggedIn, .ended] := by
    decide +kernel
  obtain ⟨note, others⟩ := isLoggedIn_performAll c loginsAndRefusals
  refine ⟨turns, ?_, others "theme" (by decide)⟩
  rw [turns] at note
  rw [Bool.eq_false_iff, ne_eq, note]
  simp

end Deed
end FileGate
