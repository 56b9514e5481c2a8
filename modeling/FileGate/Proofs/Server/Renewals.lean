import Mathlib.Data.Int.Order.Basic
import FileGate.Proofs.Server.Arising
import FileGate.Proofs.Server.Race
import FileGate.Proofs.Tokens.Validity

namespace FileGate.Server

variable {ι τ : Type} [DecidableEq ι]

section
variable [LinearOrder τ] [Add τ]
variable {s : Server τ} {q : ι → Asked} {token : String} {ms : List (Move ι τ)} {m : Move ι τ}
variable {c c' : Race ι τ} {i j : ι}

/-! ### The store -/

/-- What becomes of the server: the first issue takes the token that all of them look at. -/
structure Kept (s : Server τ) (token : String) (ms : List (Move ι τ)) (c : Race ι τ) : Prop where
  numbered : Numbered c.server.tokens c.server.issued
  now : c.server.now = clockAfter s.now ms
  access : c.server.accessLife = s.accessLife
  refresh : c.server.refreshLife = s.refreshLife
  calendar : c.server.calendar = s.calendar
  grown : s.issued ≤ c.server.issued
  untouched : (∀ j, .issue j ∉ ms) → c.server.tokens = s.tokens
  retired : ∀ j, .issue j ∈ ms → Assoc.get? token c.server.tokens.refresh = none

omit [DecidableEq ι] [LinearOrder τ] [Add τ] in
theorem kept_start (numbered : Numbered s.tokens s.issued) :
    Kept s token [] (.start s : Race ι τ) where
  numbered := numbered
  now := rfl
  access := rfl
  refresh := rfl
  calendar := rfl
  grown := Nat.le_refl _
  untouched _ := rfl
  retired _ there := (List.not_mem_nil there).elim

omit [DecidableEq ι] [LinearOrder τ] [Add τ] in
theorem clockAfter_snoc (now : τ) (ms : List (Move ι τ)) (m : Move ι τ) :
    clockAfter now (ms ++ [m]) = clockAfter (clockAfter now ms) [m] := by
  unfold clockAfter
  rw [List.foldl_append]

omit [LinearOrder τ] [Add τ] in
theorem Numbered.apart {tokens : TokenStore τ} {n k : Nat} {r : String}
    (numbered : Numbered tokens n) (there : r ∈ Assoc.keys tokens.refresh) (later : n ≤ k) :
    r ≠ tokenName (k + 2) := by
  rintro rfl
  obtain ⟨x, small, same⟩ := numbered.number _ there
  have equal : k + 2 = x := tokenName_injective same
  omega

omit [DecidableEq ι] [LinearOrder τ] [Add τ] in
theorem Kept.aside (kept : Kept s token ms c) (other : ∀ j, m ≠ .issue j) {now : τ}
    {phase : ι → Phase τ} (moved : now = clockAfter c.server.now [m]) :
    Kept s token (ms ++ [m]) ⟨{ c.server with now }, phase⟩ where
  numbered := kept.numbered
  now := by rw [clockAfter_snoc, ← kept.now, moved]
  access := kept.access
  refresh := kept.refresh
  calendar := kept.calendar
  grown := kept.grown
  untouched first := kept.untouched fun j there => first j (List.mem_append_left _ there)
  retired j there := by
    rcases List.mem_append.mp there with before | last
    · exact kept.retired j before
    · exact absurd (List.mem_singleton.mp last).symm (other j)

theorem Kept.step (kept : Kept s token ms c) (numbered : Numbered s.tokens s.issued)
    (there : ∀ i user, c.phase i = .found user → token ∈ Assoc.keys s.tokens.refresh)
    (presents : ∀ i, presented (q i) = token) (step : Step q c m c') :
    Kept s token (ms ++ [m]) c' := by
  cases step with
  | look i waiting => exact kept.aside (by simp) rfl
  | clock later => exact kept.aside (by simp) rfl
  | @issue i user found =>
    have next := kept.numbered.sendTokens user ((q i).field "cookie_path") (some (presented (q i)))
    refine ⟨next, ?_, kept.access, kept.refresh, kept.calendar, Nat.le_add_right_of_le kept.grown,
      fun first => ?_, fun _ _ => ?_⟩
    · rw [clockAfter_snoc, ← kept.now]
      rfl
    · exact absurd (List.mem_append_right _ (List.mem_singleton_self _)) (first i)
    · -- The token that was looked at is older than the race, so it is not the new one either.
      refine Option.eq_none_iff_forall_ne_some.mpr fun g still => ?_
      rcases kept.numbered.coherent.get?_refresh_issue.mp still with ⟨new, _⟩ | ⟨_, other, _⟩
      · exact numbered.apart (there i user found) kept.grown new
      · exact other (by rw [presents i])

/-! ### The requests -/

/-- How far each request is: it has found its token good if and only if it looked in time. -/
structure Seen (s : Server τ) (token : String) (ms : List (Move ι τ)) (c : Race ι τ) : Prop where
  waiting : ∀ i, c.phase i = .waiting ↔ .look i ∉ ms
  issued : ∀ i, .issue i ∈ ms ↔ ∃ n, c.phase i = .renewed n
  inTime : ∀ i, InTime s token ms i ↔ ∃ user, (c.phase i).user? = some user
  owner : ∀ i user, (c.phase i).user? = some user →
    ∃ ends, Assoc.get? token s.tokens.refresh = some ⟨user, ends⟩

omit [DecidableEq ι] [Add τ] in
theorem seen_start : Seen s token [] (.start s : Race ι τ) where
  waiting _ := by simp [Race.start]
  issued _ := by simp [Race.start]
  inTime _ := by
    simp only [Race.start, Phase.user?, reduceCtorEq, exists_false, iff_false]
    rintro ⟨before, later, whole, _⟩
    simp at whole
  owner _ _ h := by cases h

omit [DecidableEq ι] [Add τ] in
/-- Once a pair is issued no look finds the token good, and until then all of them do as long as it
is. -/
theorem Kept.checkRefresh_iff (kept : Kept s token ms c) (user : String) :
    c.server.tokens.checkRefresh c.server.now token = some user ↔
      (∀ j, .issue j ∉ ms) ∧ s.tokens.checkRefresh (clockAfter s.now ms) token = some user := by
  by_cases first : ∀ j, Move.issue j ∉ ms
  · rw [kept.untouched first, kept.now, and_iff_right first]
  · refine iff_of_false (fun good => ?_) fun both => first both.1
    obtain ⟨j, there⟩ := not_forall_not.mp first
    obtain ⟨_, ends, found, _⟩ := TokenStore.valid?_eq_some_iff.mp good
    rw [kept.retired j there] at found
    cases found

omit [Add τ] in
theorem Seen.look (seen : Seen s token ms c) (kept : Kept s token ms c)
    (presents : presented (q i) = token) (waiting : c.phase i = .waiting) :
    Seen s token (ms ++ [.look i]) (c.look q i) := by
  constructor
  · intro j
    by_cases same : j = i
    · subst same
      simp
    · rw [Race.look_of_ne q c same, seen.waiting]
      simp [same]
  · intro j
    by_cases same : j = i
    · subst same
      have no : ¬ ∃ n, c.phase j = .renewed n := by simp [waiting]
      rw [← seen.issued] at no
      simp [no]
    · rw [Race.look_of_ne q c same, ← seen.issued]
      simp
  · intro j
    by_cases same : j = i
    · -- It has not looked before, so that only this look can be in time.
      subst same
      have no : ¬ InTime s token ms j := by
        rw [seen.inTime, waiting]
        simp [Phase.user?]
      simp only [inTime_snoc, no, false_or, true_and, Race.look_self, Phase.user?_ofCheck, presents,
        kept.checkRefresh_iff, exists_and_left]
    · rw [Race.look_of_ne q c same, ← seen.inTime, inTime_snoc]
      simp [Ne.symm same]
  · intro j user found
    by_cases same : j = i
    · subst same
      rw [Race.look_self, Phase.user?_ofCheck, presents, kept.checkRefresh_iff] at found
      obtain ⟨_, ends, there, _⟩ := TokenStore.valid?_eq_some_iff.mp found.2
      exact ⟨ends, there⟩
    · rw [Race.look_of_ne q c same] at found
      exact seen.owner j user found

theorem Seen.issue {user : String} (seen : Seen s token ms c) (found : c.phase i = .found user) :
    Seen s token (ms ++ [.issue i]) (c.issue q i user) := by
  constructor
  · intro j
    by_cases same : j = i
    · subst same
      have before : Move.look j ∈ ms := by
        by_contra no
        rw [(seen.waiting j).mpr no] at found
        cases found
      simp [before]
    · rw [Race.issue_of_ne q user c same, seen.waiting]
      simp
  · intro j
    by_cases same : j = i
    · subst same
      simp
    · rw [Race.issue_of_ne q user c same, ← seen.issued]
      simp [same]
  · intro j
    rw [inTime_snoc, seen.inTime]
    by_cases same : j = i
    · subst same
      simp [found]
    · rw [Race.issue_of_ne q user c same]
      simp
  · intro j owner there
    by_cases same : j = i
    · subst same
      rw [Race.issue_self, Phase.user?_renewed] at there
      cases there
      exact seen.owner j user (by rw [found, Phase.user?_found])
    · rw [Race.issue_of_ne q user c same] at there
      exact seen.owner j owner there

theorem Seen.step (seen : Seen s token ms c) (kept : Kept s token ms c)
    (presents : ∀ i, presented (q i) = token) (step : Step q c m c') :
    Seen s token (ms ++ [m]) c' := by
  cases step with
  | look i waiting => exact seen.look kept (presents i) waiting
  | issue i found => exact seen.issue found
  | clock later =>
    constructor
    · intro i
      simpa using seen.waiting i
    · intro i
      simpa using seen.issued i
    · intro i
      rw [inTime_snoc]
      simpa using seen.inTime i
    · exact seen.owner

/-! ### The pairs -/

/-- A pair that a request was answered with. -/
structure Lives (s : Server τ) (token : String) (c : Race ι τ) (r : Asked) (n : Renewal τ) :
    Prop where
  number : ∃ k ≤ c.server.issued, n.refresh = tokenName k
  other : n.refresh ≠ token
  answer : (∃ a, n.answer = .ok a ∧ a.status = 200) ↔ s.Tells (r.field "cookie_path")
  grant : ∀ g, Assoc.get? n.refresh c.server.tokens.refresh = some g →
    g = ⟨n.user, n.time + s.refreshLife.span⟩
  stays : c.server.now < n.time + s.refreshLife.span →
    Assoc.get? n.refresh c.server.tokens.refresh = some ⟨n.user, n.time + s.refreshLife.span⟩

structure Paired (s : Server τ) (q : ι → Asked) (token : String) (c : Race ι τ) : Prop where
  lives : ∀ i n, c.phase i = .renewed n → Lives s token c (q i) n
  apart : ∀ i j n n', c.phase i = .renewed n → c.phase j = .renewed n' →
    n'.refresh = n.refresh → j = i

omit [DecidableEq ι] in
theorem paired_start : Paired s q token (.start s : Race ι τ) where
  lives _ _ h := by cases h
  apart _ _ _ _ h := by cases h

omit [DecidableEq ι] in
theorem Lives.ne_next {r : Asked} {n : Renewal τ} (lives : Lives s token c r n) :
    n.refresh ≠ tokenName (c.server.issued + 2) := by
  obtain ⟨k, small, name⟩ := lives.number
  rw [name]
  intro same
  have equal := tokenName_injective same
  omega

theorem Lives.issue {r : Asked} {n : Renewal τ} {user : String} (lives : Lives s token c r n)
    (kept : Kept s token ms c) (presents : presented (q i) = token) :
    Lives s token (c.issue q i user) r n := by
  have coherent := kept.numbered.coherent
  refine ⟨?_, lives.other, lives.answer, fun g found => ?_, fun good => ?_⟩
  · obtain ⟨k, small, name⟩ := lives.number
    exact ⟨k, Nat.le_add_right_of_le small, name⟩
  · rcases coherent.get?_refresh_issue.mp found with ⟨new, _⟩ | ⟨_, _, old, _⟩
    · exact absurd new lives.ne_next
    · exact lives.grant g old
  · have stays := lives.stays good
    refine coherent.get?_refresh_issue.mpr (.inr ⟨lives.ne_next, ?_, stays, not_le.mpr good⟩)
    rw [presents, ne_eq, Option.some.injEq]
    exact fun same => lives.other same.symm

theorem lives_issued {user : String} (kept : Kept s token ms c)
    (numbered : Numbered s.tokens s.issued) (there : token ∈ Assoc.keys s.tokens.refresh)
    {n : Renewal τ} (new : (c.issue q i user).phase i = .renewed n) :
    Lives s token (c.issue q i user) (q i) n := by
  have coherent := kept.numbered.coherent
  rw [Race.issue_self] at new
  cases new
  refine ⟨⟨_, Nat.le_refl _, rfl⟩, (numbered.apart there kept.grown).symm, ?_, fun g found => ?_,
    fun _ => ?_⟩
  · rw [sendTokens_ok_iff]
    exact tells_congr kept.access kept.refresh kept.calendar _
  · rw [← kept.refresh]
    rcases coherent.get?_refresh_issue.mp found with ⟨_, same⟩ | ⟨other, _⟩
    · exact same
    · exact absurd rfl other
  · rw [← kept.refresh]
    exact coherent.get?_refresh_issue.mpr (.inl ⟨rfl, rfl⟩)

theorem Paired.issue {user : String} (paired : Paired s q token c) (kept : Kept s token ms c)
    (numbered : Numbered s.tokens s.issued) (there : token ∈ Assoc.keys s.tokens.refresh)
    (presents : presented (q i) = token) : Paired s q token (c.issue q i user) := by
  have old {j : ι} {n : Renewal τ} (other : j ≠ i) (h : (c.issue q i user).phase j = .renewed n) :
      Lives s token c (q j) n := by
    rw [Race.issue_of_ne q user c other] at h
    exact paired.lives j n h
  have new {n : Renewal τ} (h : (c.issue q i user).phase i = .renewed n) :
      n.refresh = tokenName (c.server.issued + 2) := by
    rw [Race.issue_self] at h
    cases h
    rfl
  constructor
  · intro j n h
    by_cases same : j = i
    · subst same
      exact lives_issued kept numbered there h
    · exact (old same h).issue kept presents
  · intro j k n n' hj hk equal
    -- The new pair has a number above all that were given out, which tells it from every old one.
    by_cases first : j = i
    · by_cases second : k = i
      · rw [first, second]
      · subst first
        rw [new hj] at equal
        exact absurd equal (old second hk).ne_next
    · by_cases second : k = i
      · subst second
        rw [new hk] at equal
        exact absurd equal.symm (old first hj).ne_next
      · rw [Race.issue_of_ne q user c first] at hj
        rw [Race.issue_of_ne q user c second] at hk
        exact paired.apart j k n n' hj hk equal

theorem Paired.step (paired : Paired s q token c) (kept : Kept s token ms c)
    (numbered : Numbered s.tokens s.issued)
    (there : ∀ i user, c.phase i = .found user → token ∈ Assoc.keys s.tokens.refresh)
    (presents : ∀ i, presented (q i) = token) (step : Step q c m c') : Paired s q token c' := by
  cases step with
  | issue i found => exact paired.issue kept numbered (there i _ found) (presents i)
  | @clock now later =>
    refine ⟨fun i n h => ?_, paired.apart⟩
    have lives := paired.lives i n h
    exact { lives with stays := fun good => lives.stays (lt_of_le_of_lt later good) }
  | look i waiting =>
    have old {j : ι} {n : Renewal τ} (h : (c.look q i).phase j = .renewed n) :
        c.phase j = .renewed n := by
      by_cases same : j = i
      · subst same
        rw [Race.look_self] at h
        exact absurd h (Phase.ofCheck_ne_renewed _ n)
      · rw [← h, Race.look_of_ne q c same]
    constructor
    · intro j n h
      exact { paired.lives j n (old h) with }
    · intro j k n n' hj hk
      exact paired.apart j k n n' (old hj) (old hk)

/-! ### Runs -/

structure Racing (s : Server τ) (q : ι → Asked) (token : String) (ms : List (Move ι τ))
    (c : Race ι τ) : Prop where
  kept : Kept s token ms c
  seen : Seen s token ms c
  paired : Paired s q token c

theorem run_racing (numbered : Numbered s.tokens s.issued)
    (presents : ∀ i, presented (q i) = token) (run : Run q (.start s) ms c) :
    Racing s q token ms c := by
  induction run with
  | start => exact ⟨kept_start numbered, seen_start, paired_start⟩
  | @step ms m c c' _ step ih =>
    have there (i : ι) (user : String) (found : c.phase i = .found user) :
        token ∈ Assoc.keys s.tokens.refresh := by
      obtain ⟨ends, grant⟩ := ih.seen.owner i user (by rw [found, Phase.user?_found])
      exact Assoc.mem_keys_iff.mpr ⟨_, grant⟩
    -- Who was seen to hold the token bears out the store's invariant, and that the other two.
    exact ⟨ih.kept.step numbered there presents step, ih.seen.step ih.kept presents step,
      ih.paired.step ih.kept numbered there presents step⟩

omit [DecidableEq ι] in
theorem Lives.good_iff {r : Asked} {n : Renewal τ} (lives : Lives s token c r n) (user : String) :
    c.server.tokens.checkRefresh c.server.now n.refresh = some user ↔
      user = n.user ∧ c.server.now < n.time + s.refreshLife.span := by
  rw [TokenStore.checkRefresh, TokenStore.valid?_eq_some_iff]
  constructor
  · rintro ⟨_, ends, found, good⟩
    have same := lives.grant _ found
    cases same
    exact ⟨rfl, good⟩
  · rintro ⟨rfl, good⟩
    obtain ⟨k, _, name⟩ := lives.number
    refine ⟨?_, _, lives.stays good, good⟩
    rw [name]
    exact (isTokenName_tokenName k).ne_empty

omit [DecidableEq ι] [Add τ] in
theorem Seen.refused_iff (seen : Seen s token ms c) (i : ι) :
    c.phase i = .refused ↔ .look i ∈ ms ∧ ¬ InTime s token ms i := by
  have looked : .look i ∈ ms ↔ c.phase i ≠ .waiting := by
    rw [ne_eq, seen.waiting, not_not]
  rw [looked, seen.inTime]
  cases c.phase i with
  | waiting => simp
  | refused => simp [Phase.user?]
  | found user => simp
  | renewed n => simp

omit [DecidableEq ι] [Add τ] in
theorem Seen.renewed_iff (seen : Seen s token ms c) (idle : ∀ i user, c.phase i ≠ .found user)
    (i : ι) : (∃ n, c.phase i = .renewed n) ↔ InTime s token ms i := by
  rw [seen.inTime]
  have none_ := idle i
  cases h : c.phase i with
  | waiting => simp [Phase.user?]
  | refused => simp [Phase.user?]
  | found user => exact absurd h (none_ user)
  | renewed n => simp

/-- However renewals with one refresh token run side by side: a new pair goes to exactly those that
look while the token is good and before the first of them issues. Each of these pairs is good until
its own time is over, so that the token serves once if and only if at most one of them looks in
time. -/
theorem renewals_exact [OfNat τ 0] (arises : s.Arises) (presents : ∀ i, presented (q i) = token)
    (run : Run q (.start s) ms c) :
    (∀ i, InTime s token ms i ↔ ∃ user, (c.phase i).user? = some user) ∧
    (∀ i, c.phase i = .refused ↔ .look i ∈ ms ∧ ¬ InTime s token ms i) ∧
    (∀ i n, c.phase i = .renewed n →
      ((∃ a, n.answer = .ok a ∧ a.status = 200) ↔ s.Tells ((q i).field "cookie_path")) ∧
      (∃ ends, Assoc.get? token s.tokens.refresh = some ⟨n.user, ends⟩) ∧
      n.refresh ≠ token ∧ (∀ j n', c.phase j = .renewed n' → n'.refresh = n.refresh → j = i) ∧
      ∀ user, c.server.tokens.checkRefresh c.server.now n.refresh = some user ↔
        user = n.user ∧ c.server.now < n.time + s.refreshLife.span) ∧
    ((∀ i user, c.phase i ≠ .found user) →
      ((∀ i j n n', c.phase i = .renewed n → c.phase j = .renewed n' → i = j) ↔
        ∀ i j, InTime s token ms i → InTime s token ms j → i = j)) := by
  obtain ⟨kept, seen, paired⟩ := run_racing arises.numbered presents run
  refine ⟨seen.inTime, seen.refused_iff, fun i n h => ?_, fun idle => ?_⟩
  · have lives := paired.lives i n h
    have owner := seen.owner i n.user (by rw [h, Phase.user?_renewed])
    exact ⟨lives.answer, owner, lives.other, fun j n' h' => paired.apart i j n n' h h',
      lives.good_iff⟩
  · simp only [← seen.renewed_iff idle]
    constructor
    · rintro once i j ⟨n, hi⟩ ⟨n', hj⟩
      exact once i j n n' hi hj
    · intro once i j n n' hi hj
      exact once i j ⟨n, hi⟩ ⟨n', hj⟩

end

/-! ### Two renewals at once -/

def loggedIn : Server Int := (oneUser.sendTokens "u" "/api/v1/files" none).2

theorem handle_login : (oneUser.handle login).2 = loggedIn := by
  obtain ⟨target, seeks, user, password, path⟩ := login_asks
  have forTokens : oneUser.ForTokens login := forTokens_of_default rfl rfl target
  rw [forTokens.handle, serveToken_of_password seeks (by rw [user]; decide), user, password, path]
  rfl

def renewing : Asked :=
  ⟨"POST", "/api/v1/auth/token".toList, [(contentType, formType)],
    Bytes.ofString "grant_type=refresh_token&refresh_token=t2"⟩

theorem renewing_asks : Seeks renewing "refresh_token" ∧ presented renewing = "t2" ∧
    renewing.field "cookie_path" = "" :=
  ⟨⟨by decide +kernel, by decide +kernel⟩, by decide +kernel, by decide +kernel⟩

def bothLook : List (Move Bool Int) := [.look false, .look true, .issue false, .issue true]

def bothLooked : Race Bool Int :=
  ((Race.start loggedIn).look (fun _ => renewing) false).look (fun _ => renewing) true

def firstIssued : Race Bool Int := bothLooked.issue (fun _ => renewing) false "u"
def bothIssued : Race Bool Int := firstIssued.issue (fun _ => renewing) true "u"

theorem bothLook_run : Run (fun _ => renewing) (.start loggedIn) bothLook bothIssued := by
  have good : loggedIn.tokens.checkRefresh loggedIn.now (presented renewing) = some "u" := by
    rw [renewing_asks.2.1]
    decide
  have found (i : Bool) : bothLooked.phase i = .found "u" := by
    cases i with
    | false =>
      rw [bothLooked, Race.look_of_ne _ _ (by decide), Race.look_self]
      exact congrArg Phase.ofCheck good
    | true =>
      rw [bothLooked, Race.look_self]
      exact congrArg Phase.ofCheck good
  have still : firstIssued.phase true = .found "u" :=
    (Race.issue_of_ne _ _ _ (by decide)).trans (found true)
  have first : Run (fun _ => renewing) (.start loggedIn) [.look false] _ :=
    Run.step .start (.look false rfl)
  have second := first.step (.look true (Race.look_of_ne _ _ (by decide)))
  exact (second.step (.issue false (found false))).step (.issue true still)

theorem loggedIn_arises : loggedIn.Arises := by
  rw [← handle_login]
  exact .request login (.fresh oneUser rfl)

theorem issue_renewing (c : Race Bool Int) (i : Bool)
    (told : ∃ n, c.server.accessLife.seconds = some n) :
    ∃ n, (c.issue (fun _ => renewing) i "u").phase i = .renewed n ∧ n.user = "u" ∧
      n.time = c.server.now ∧ n.refresh = tokenName (c.server.issued + 2) ∧
      ∃ a, n.answer = .ok a ∧ a.status = 200 := by
  obtain ⟨_, _, noPath⟩ := renewing_asks
  have tells : c.server.Tells (renewing.field "cookie_path") :=
    ⟨told, fun other => absurd noPath other⟩
  refine ⟨_, Race.issue_self .., rfl, rfl, rfl, ?_⟩
  exact sendTokens_of_tells tells "u" (some (presented renewing))

theorem bothIssued_second :
    ∃ n, bothIssued.phase true = .renewed n ∧ n.user = "u" ∧ n.time = 1000 ∧ n.refresh = "t6" ∧
      ∃ a, n.answer = .ok a ∧ a.status = 200 := by
  have name : tokenName 6 = "t6" := by decide
  obtain ⟨n, renewed, user, time, refresh, answer⟩ :=
    issue_renewing firstIssued true ⟨300, rfl⟩
  exact ⟨n, renewed, user, time, refresh.trans name, answer⟩

theorem bothIssued_first :
    ∃ n, bothIssued.phase false = .renewed n ∧ n.refresh = "t4" ∧
      ∃ a, n.answer = .ok a ∧ a.status = 200 := by
  have name : tokenName 4 = "t4" := by decide
  obtain ⟨n, renewed, _, _, refresh, answer⟩ :=
    issue_renewing bothLooked false ⟨300, rfl⟩
  refine ⟨n, ?_, refresh.trans name, answer⟩
  exact (Race.issue_of_ne _ _ _ (by decide)).trans renewed

theorem renewals_exact_bothLook :
    loggedIn.Arises ∧ presented renewing = "t2" ∧
      Run (fun _ => renewing) (.start loggedIn) bothLook bothIssued ∧
      InTime loggedIn "t2" bothLook true ∧
      bothIssued.server.tokens.checkRefresh bothIssued.server.now "t6" = some "u" := by
  obtain ⟨inTime, _, pairs, _⟩ :=
    renewals_exact loggedIn_arises (fun _ => renewing_asks.2.1) bothLook_run
  obtain ⟨n, renewed, user, time, refresh, _⟩ := bothIssued_second
  obtain ⟨_, _, _, _, good⟩ := pairs true n renewed
  refine ⟨loggedIn_arises, renewing_asks.2.1, bothLook_run, (inTime true).mpr ⟨"u", ?_⟩, ?_⟩
  · rw [renewed, Phase.user?_renewed, user]
  · rw [← refresh, good "u", user, time]
    exact ⟨rfl, by decide⟩

/-- Two requests with one live token are both answered with a pair, and both pairs are good. -/
theorem both_renewed :
    loggedIn.Arises ∧ Seeks renewing "refresh_token" ∧ presented renewing = "t2" ∧
      loggedIn.tokens.checkRefresh loggedIn.now "t2" = some "u" ∧
      ∃ c n n', Run (fun _ => renewing) (.start loggedIn) bothLook c ∧
        c.phase false = .renewed n ∧ c.phase true = .renewed n' ∧
        (∃ a, n.answer = .ok a ∧ a.status = 200) ∧ (∃ a, n'.answer = .ok a ∧ a.status = 200) ∧
        n'.refresh ≠ n.refresh ∧
        c.server.tokens.checkRefresh c.server.now n.refresh = some "u" ∧
        c.server.tokens.checkRefresh c.server.now n'.refresh = some "u" := by
  obtain ⟨seeks, presents, _⟩ := renewing_asks
  obtain ⟨n, first, refresh, answer⟩ := bothIssued_first
  obtain ⟨n', second, _, _, refresh', answer'⟩ := bothIssued_second
  refine ⟨loggedIn_arises, seeks, presents, by decide, bothIssued, n, n',
    bothLook_run, first, second, answer, answer', ?_⟩
  rw [refresh, refresh']
  decide +kernel

end FileGate.Server
