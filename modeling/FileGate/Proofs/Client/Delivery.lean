import FileGate.Client.Flow
import FileGate.Server.Site
import FileGate.Proofs.Server.Arrival
import FileGate.Proofs.Server.CookieText

/-! Networks between a client and a server. All that is asked of one is that requests and responses
come through and that the tokens the server set last go along with each request. -/
namespace FileGate

variable {τ ω : Type} [LE τ] [DecidableLE τ] [Add τ]

/-- A network that brings each request to the server, together with the tokens that the server set
last, and its response back. The view of a world is the server and what the client holds. -/
structure Delivers (net : Network ω) (view : ω → Server τ × Held) : Prop where
  delivered : ∀ (q : Request) (target : List Char) (w : ω),
    q.url = String.ofList ("http://127.0.0.1:8080".toList ++ target) →
    ∃ r, Arrives q target (view w).2 r ∧
      (net.answer q w).2 = .ok (Site.reply ((view w).1.handle r).1) ∧
      view (net.answer q w).1 = (((view w).1.handle r).2, (view w).2.take ((view w).1.handle r).1)

section
variable {net : Network ω} {view : ω → Server τ × Held} {c : Client ω} {s : Server τ} {held : Held}

theorem Delivers.answered (delivers : Delivers net view) (there : view c.world = (s, held))
    (e : Exchange) (data : Bytes) {target : List Char}
    (url : e.url = String.ofList ("http://127.0.0.1:8080".toList ++ target)) :
    ∃ r c', Arrives ⟨e.method, e.url, e.headers, data⟩ target held r ∧
      c.answered net e data = (c', .ok ⟨Site.reply (s.handle r).1, c.replies⟩) ∧
      view c'.world = ((s.handle r).2, held.take (s.handle r).1) ∧
      c'.config = c.config ∧ c'.credentials = c.credentials := by
  obtain ⟨r, arrives, came, after⟩ :=
    delivers.delivered ⟨e.method, e.url, e.headers, data⟩ target c.world url
  rw [there] at arrives came after
  rcases h : net.answer ⟨e.method, e.url, e.headers, data⟩ c.world with ⟨w, x⟩
  rw [h] at came after
  dsimp only at came after
  subst came
  let c' : Client ω := { c with
    world := w, replies := c.replies + 1,
    journal := c.journal ++ [{ e with answer := some c.replies }] }
  refine ⟨r, c', arrives, ?_, after, rfl, rfl⟩
  simp only [Client.answered, h]
  rfl

omit [LE τ] [DecidableLE τ] [Add τ] in
theorem renewal_fields (config : c.config = {}) (cookies : c.credentials = .cookies) :
    Utf8.encode (Form.encode (List.map (fun (k, v) => (k.toList, v.display))
      [("grant_type", .text "refresh_token"), ("refresh_token", c.refreshToken),
        ("cookie_path", c.config.cookiePath)])) = Server.renewalBody := by
  rw [Client.refreshToken, config, cookies]
  rfl

theorem Delivers.refresh (delivers : Delivers net view) (there : view c.world = (s, held))
    (config : c.config = {}) (cookies : c.credentials = .cookies) :
    ∃ url r c', Arrives (Server.renewal url) "/api/v1/auth/token".toList held r ∧
      view c'.world = ((s.handle r).2, held.take (s.handle r).1) ∧
      c'.config = c.config ∧ c'.credentials = c.credentials ∧
      c.refresh net = if isSuccess (s.handle r).1.status then (c', none)
        else ({ c' with entries := Session.clear c'.entries }, some (.auth .tokenRefresh)) := by
  let fields : List (String × Value) :=
    [("grant_type", .text "refresh_token"), ("refresh_token", c.refreshToken),
      ("cookie_path", c.config.cookiePath)]
  let url := String.ofList ("http://127.0.0.1:8080".toList ++ "/api/v1/auth/token".toList)
  let e : Exchange :=
    ⟨"POST", url, [(contentType, formType)], c.config.timeout, none, .form fields, none⟩
  have body := renewal_fields config cookies
  obtain ⟨r, c', arrives, answered, after, config', credentials'⟩ :=
    delivers.answered there e Server.renewalBody rfl
  refine ⟨url, r, c', arrives, after, config', credentials', ?_⟩
  have address : c.config.urlFor c.config.tokenPath.display = .ok url := by
    rw [config]
    rfl
  have posted : c.post net c.config.tokenPath fields =
      (c', .ok (Site.reply (s.handle r).1)) := by
    rw [Client.post, address]
    dsimp only
    rw [body, answered]
    rfl
  rw [Client.refresh, Client.exchange, posted]
  rfl

end

/-! ### A network that sends both tokens with every request -/

def Held.cookies (h : Held) : String :=
  "access_token=" ++ h.access ++ "; refresh_token=" ++ h.refresh

theorem Held.read_cookies {h : Held}
    (known : h.All fun v => v = "" ∨ Server.IsTokenName v) :
    Cookie.read h.cookies = [("access_token", h.access), ("refresh_token", h.refresh)] := by
  have plain {v : String} (k : v = "" ∨ Server.IsTokenName v) : Cookie.ArePlain v.toList := by
    rcases k with rfl | k
    · intro c hc
      cases hc
    · exact k.plain
  have access := plain known.1
  have refresh := plain known.2
  have accessName : Cookie.ArePlain "access_token".toList := by decide
  have refreshName : Cookie.ArePlain "refresh_token".toList := by decide
  have text : h.cookies.toList = "access_token".toList ++ '=' :: (h.access.toList ++ ';' :: ' ' ::
      ("refresh_token".toList ++ '=' :: h.refresh.toList)) := by
    simp [cookies]
  have ascii : ∀ c ∈ h.cookies.toList, c.toNat < 128 := by
    intro c hc
    rw [text] at hc
    simp only [List.mem_append, List.mem_cons] at hc
    rcases hc with hc | rfl | hc | rfl | rfl | hc | rfl | hc
    · exact (accessName c hc).1
    · decide
    · exact (access c hc).1
    · decide
    · decide
    · exact (refreshName c hc).1
    · decide
    · exact (refresh c hc).1
  have long : ∃ fuel, h.cookies.toList.length + 1 = fuel + 3 := by
    refine ⟨h.cookies.toList.length - 2, ?_⟩
    rw [text]
    simp only [List.length_append, List.length_cons]
    omega
  obtain ⟨fuel, long⟩ := long
  have pairs := Cookie.pairs_two accessName refreshName access refresh (by decide) fuel
  rw [Cookie.read, Cookie.headerText_ascii ascii]
  dsimp only
  rw [long, text, pairs]
  simp [String.ofList_toList]

/-- What a server and a client can come to that are joined by such a network. -/
def Joined (τ : Type) : Type :=
  { x : Server τ × Held // x.2.All fun v => v = "" ∨ Server.IsTokenName v }

namespace Joined

def asked (held : Held) (q : Request) : Asked :=
  .ofRequest q.method (q.url.toList.drop "http://127.0.0.1:8080".toList.length)
    ((q.headers.filter fun e => lowerText e.1 != lowerText "Cookie") ++ [("Cookie", held.cookies)])
    q.body

def answer (q : Request) (w : Joined τ) : Response × Joined τ :=
  let x := w.1.1.handle (asked w.1.2 q)
  (x.1, ⟨(x.2, w.1.2.take x.1), w.2.take x.1 fun c hc =>
    ((Server.handle_effect w.1.1 (asked w.1.2 q)).2 c hc).imp_right And.left⟩)

def network : Network (Joined τ) where
  answer q w := ((answer q w).2, .ok (Site.reply (answer q w).1))
  arrive _ w := w
  stopped _ := false

theorem values_asked (held : Held) (q : Request) {name : String}
    (other : lowerText "Cookie" ≠ lowerText name) :
    (asked held q).values name = Headers.values name q.headers := by
  have kept : ∀ e ∈ q.headers, ((lowerText e.1 == lowerText name) &&
      (lowerText e.1 != lowerText "Cookie")) = (lowerText e.1 == lowerText name) := by
    intro e _
    cases same : lowerText e.1 == lowerText name with
    | false => rfl
    | true => rw [beq_iff_eq.mp same]; simpa using Ne.symm other
  have absent : ([("Cookie", held.cookies)].filter fun e => lowerText e.1 == lowerText name) = [] := by
    simp [other]
  change (((q.headers.filter _ ++ [("Cookie", held.cookies)]).filter _).map _) = _
  rw [List.filter_append, List.filter_filter, List.filter_congr kept, absent, List.append_nil]
  rfl

theorem cookies_asked (held : Held) (q : Request) :
    (asked held q).header? "Cookie" = some held.cookies := by
  have others : ((q.headers.filter fun e => lowerText e.1 != lowerText "Cookie").filter
      fun e => lowerText e.1 == lowerText "Cookie") = [] := by
    rw [List.filter_eq_nil_iff]
    intro e he
    have differs := (List.mem_filter.mp he).2
    simpa using differs
  have only : (asked held q).values "Cookie" = [held.cookies] := by
    change (((q.headers.filter _ ++ [("Cookie", held.cookies)]).filter _).map _) = _
    rw [List.filter_append, others]
    simp
  rw [Asked.header?, only]
  rfl

theorem network_delivers : Delivers (network (τ := τ)) Subtype.val := by
  constructor
  intro q target w url
  have there : q.url.toList.drop "http://127.0.0.1:8080".toList.length = target := by
    have spelt : q.url.toList = "http://127.0.0.1:8080".toList ++ target := by
      rw [url]
      exact String.toList_ofList
    rw [spelt]
    exact List.drop_left
  have read := Held.read_cookies w.2
  refine ⟨asked w.1.2 q, ⟨rfl, ?_, rfl, ?_, ?_, ?_⟩, rfl, rfl⟩
  · rw [← there]
    rfl
  · intro name readName
    apply values_asked
    simp only [Asked.readNames, List.mem_cons, List.not_mem_nil, or_false] at readName
    rcases readName with rfl | rfl | rfl | rfl <;> decide +kernel
  · rw [Asked.cookie?, cookies_asked, Cookie.get?, Option.getD_some, read]
    rfl
  · rw [Asked.cookie?, cookies_asked, Cookie.get?, Option.getD_some, read]
    rfl

end Joined
end FileGate
