import Mathlib.Data.Int.Order.Basic
import FileGate.Proofs.Tokens.History
import FileGate.Proofs.Tokens.Withdrawal

namespace FileGate.TokenStore

variable {τ : Type} [LinearOrder τ] [Add τ]
variable {life : Lifetimes τ} {h : List (Event τ)} {s : TokenStore τ}
variable {now t t' : τ} {user a r : String}

theorem valid?_eq_some_iff {τ : Type} [LinearOrder τ] {now : τ}
    {grants : List (String × Grant τ)} {token : String} :
    valid? grants now token = some user ↔
      token ≠ "" ∧ ∃ ends, Assoc.get? token grants = some ⟨user, ends⟩ ∧ now < ends := by
  simp only [valid?_iff, not_le]

/-- A pair was issued, and its refresh token has not been cleared away. -/
def KeepsRefresh (life : Lifetimes τ) (h : List (Event τ)) (t : τ) (user a r : String) : Prop :=
  ∃ previous, Since h ⟨t, .issue user previous a r⟩ (Event.ClearsRefresh r (t + life.refresh))

/-- A pair was issued, and its access token has not been ended. -/
def KeepsAccess (life : Lifetimes τ) (h : List (Event τ)) (t : τ) (user a r : String) : Prop :=
  ∃ previous, Since h ⟨t, .issue user previous a r⟩ (Event.WithdrawsAccess a r (t + life.refresh))

theorem KeepsAccess.keepsRefresh (kept : KeepsAccess life h t user a r) :
    KeepsRefresh life h t user a r := by
  obtain ⟨previous, since⟩ := kept
  exact ⟨previous, since.mono fun f _ clears => .inr (.inr clears)⟩

theorem KeepsRefresh.exists_mem (kept : KeepsRefresh life h t user a r) :
    ∃ previous, ⟨t, .issue user previous a r⟩ ∈ h := by
  obtain ⟨previous, since⟩ := kept
  exact ⟨previous, since.mem⟩

theorem keepsRefresh_snoc {op : Operation} (other : op.pair? = none) :
    KeepsRefresh life (h ++ [⟨t', op⟩]) t user a r ↔
      KeepsRefresh life h t user a r ∧ ¬ Event.ClearsRefresh r (t + life.refresh) ⟨t', op⟩ := by
  simp only [KeepsRefresh, since_snoc_of_not_issue other, exists_and_right]

theorem keepsAccess_snoc {op : Operation} (other : op.pair? = none) :
    KeepsAccess life (h ++ [⟨t', op⟩]) t user a r ↔
      KeepsAccess life h t user a r ∧ ¬ Event.WithdrawsAccess a r (t + life.refresh) ⟨t', op⟩ := by
  simp only [KeepsAccess, since_snoc_of_not_issue other, exists_and_right]

theorem keepsRefresh_snoc_issue {user' access refresh : String} {previous : Option String} :
    KeepsRefresh life (h ++ [⟨t', .issue user' previous access refresh⟩]) t user a r ↔
      (t = t' ∧ user = user' ∧ a = access ∧ r = refresh) ∨
      KeepsRefresh life h t user a r ∧ previous ≠ some r ∧ ¬ t + life.refresh ≤ t' := by
  rw [KeepsRefresh, since_snoc_issue, Event.clearsRefresh_issue, not_or]
  rfl

theorem keepsAccess_snoc_issue {user' access refresh : String} {previous : Option String} :
    KeepsAccess life (h ++ [⟨t', .issue user' previous access refresh⟩]) t user a r ↔
      (t = t' ∧ user = user' ∧ a = access ∧ r = refresh) ∨
      KeepsAccess life h t user a r ∧ previous ≠ some r ∧ ¬ t + life.refresh ≤ t' := by
  rw [KeepsAccess, since_snoc_issue, Event.withdrawsAccess_issue, not_or]
  rfl

variable [Zero τ]

/-- What a store has after a run: every pair whose refresh token is kept, and of the access tokens
those that can be good at the end or later. -/
structure Recorded (life : Lifetimes τ) (h : List (Event τ)) (s : TokenStore τ) : Prop where
  coherent : s.Coherent
  refresh : ∀ r g, Assoc.get? r s.refresh = some g ↔
    ∃ t user a, g = ⟨user, t + life.refresh⟩ ∧ KeepsRefresh life h t user a r
  pairs : ∀ r a, Assoc.get? r s.pairs = some a ↔ ∃ t user, KeepsRefresh life h t user a r
  access : ∀ now, 0 ≤ now → (∀ e ∈ h, e.time ≤ now) → ∀ a user ends, now < ends →
    (Assoc.get? a s.access = some ⟨user, ends⟩ ↔
      ∃ t r, ends = t + life.access ∧ KeepsAccess life h t user a r)

theorem empty_recorded : Recorded life [] {} where
  coherent := empty_coherent
  refresh r g := by simp [Assoc.get?, KeepsRefresh, not_since_nil]
  pairs r a := by simp [Assoc.get?, KeepsRefresh, not_since_nil]
  access now _ _ a user ends _ := by simp [Assoc.get?, KeepsAccess, not_since_nil]

/-! ### One event more -/

theorem KeepsRefresh.unique {user' r' : String} (proper : Proper h now)
    (kept : KeepsRefresh life h t user a r) (kept' : KeepsRefresh life h t' user' a r') :
    r' = r := by
  obtain ⟨_, there⟩ := kept.exists_mem
  obtain ⟨_, there'⟩ := kept'.exists_mem
  have together := Event.eq_of_not_apart proper.new there there' fun apart =>
    (apart _ rfl _ rfl).1 rfl
  cases together
  rfl

theorem Recorded.paired (recorded : Recorded life h s) (proper : Proper h now)
    (kept : KeepsAccess life h t user a r) (x : String) :
    Assoc.get? x s.pairs = some a ↔ x = r := by
  constructor
  · intro pair
    obtain ⟨_, _, other⟩ := (recorded.pairs x a).mp pair
    exact kept.keepsRefresh.unique proper other
  · rintro rfl
    exact (recorded.pairs x a).mpr ⟨t, user, kept.keepsRefresh⟩

theorem Recorded.get?_refresh (recorded : Recorded life h s)
    (kept : KeepsAccess life h t user a r) :
    Assoc.get? r s.refresh = some ⟨user, t + life.refresh⟩ :=
  (recorded.refresh r _).mpr ⟨t, user, a, rfl, kept.keepsRefresh⟩

theorem Recorded.of_access (recorded : Recorded life h s) {op : Operation} (other : op.pair? = none)
    (quiet : ∀ x, op ≠ .revokeRefresh x) {s' : TokenStore τ} (coherent : s'.Coherent)
    (refresh : s'.refresh = s.refresh) (pairs : s'.pairs = s.pairs)
    (access : ∀ now, 0 ≤ now → ∀ a user ends, now < ends →
      (Assoc.get? a s'.access = some ⟨user, ends⟩ ↔
        Assoc.get? a s.access = some ⟨user, ends⟩ ∧
          ¬ (op = .revokeAccess a ∨ op = .expireAccess))) :
    Recorded life (h ++ [⟨t', op⟩]) s' := by
  have clears (r : String) (ends : τ) : ¬ Event.ClearsRefresh r ends ⟨t', op⟩ :=
    Event.not_clearsRefresh other quiet
  refine ⟨coherent, fun r g => ?_, fun r a => ?_, fun now start past a user ends good => ?_⟩
  · simp only [keepsRefresh_snoc other, clears, not_false_eq_true, and_true, refresh,
      recorded.refresh]
  · simp only [keepsRefresh_snoc other, clears, not_false_eq_true, and_true, pairs, recorded.pairs]
  · have before := recorded.access now start fun e he => past e (List.mem_append_left _ he)
    rw [access now start a user ends good, before a user ends good]
    simp only [keepsAccess_snoc other, Event.withdrawsAccess_iff other quiet, ← and_assoc,
      exists_and_right]

theorem Recorded.check (recorded : Recorded life h s) {op : Operation} (other : op.pair? = none)
    (quiet : ∀ x, op ≠ .revokeRefresh x ∧ op ≠ .revokeAccess x) (lasting : op ≠ .expireAccess) :
    Recorded life (h ++ [⟨t', op⟩]) s := by
  refine recorded.of_access other (fun x => (quiet x).1) recorded.coherent rfl rfl ?_
  intro now _ a user ends _
  simp [(quiet a).2, lasting]

theorem Recorded.revokeAccess (recorded : Recorded life h s) (x : String) :
    Recorded life (h ++ [⟨t', .revokeAccess x⟩]) (s.revokeAccess x).2 := by
  refine recorded.of_access rfl (by simp) (recorded.coherent.revokeAccess x) rfl rfl ?_
  intro now _ a user ends _
  simp only [TokenStore.revokeAccess, Assoc.get?_erase_eq_some, Operation.revokeAccess.injEq,
    reduceCtorEq, or_false]
  rw [and_comm, ne_comm]

theorem Recorded.expireAccess (recorded : Recorded life h s) :
    Recorded life (h ++ [⟨t', .expireAccess⟩]) s.expireAccess := by
  refine recorded.of_access rfl (by simp) recorded.coherent.expireAccess rfl rfl ?_
  intro now start a user ends good
  have past : Assoc.get? a s.expireAccess.access ≠ some ⟨user, ends⟩ := by
    intro there
    obtain ⟨⟨_, g⟩, _, same⟩ := List.mem_map.mp (Assoc.mem_of_get? there)
    cases same
    exact absurd start (not_le.mpr good)
  simp [past]

theorem Recorded.revokeRefresh (recorded : Recorded life h s) (proper : Proper h t') (x : String) :
    Recorded life (h ++ [⟨t', .revokeRefresh x⟩]) (s.revokeRefresh x).2 := by
  have c := recorded.coherent
  have other : (Operation.revokeRefresh x).pair? = none := rfl
  refine ⟨c.dropRefresh x, fun r g => ?_, fun r a => ?_, fun now start past a user ends good => ?_⟩
  · simp only [TokenStore.revokeRefresh, c.get?_refresh_dropRefresh, recorded.refresh,
      keepsRefresh_snoc other, Event.clearsRefresh_revokeRefresh, ← and_assoc, exists_and_right]
    rw [and_comm, ne_comm]
  · simp only [TokenStore.revokeRefresh, c.get?_pairs_dropRefresh, recorded.pairs,
      keepsRefresh_snoc other, Event.clearsRefresh_revokeRefresh, exists_and_right]
    rw [and_comm, ne_comm]
  · have before := recorded.access now start fun e he => past e (List.mem_append_left _ he)
    rw [TokenStore.revokeRefresh, c.get?_access_dropRefresh, before a user ends good]
    simp only [keepsAccess_snoc other, Event.withdrawsAccess_revokeRefresh]
    constructor
    · rintro ⟨apart, t, r, rfl, kept⟩
      exact ⟨t, r, rfl, kept, fun same => apart ((recorded.paired proper kept x).mpr same)⟩
    · rintro ⟨t, r, rfl, kept, other⟩
      exact ⟨fun pair => other ((recorded.paired proper kept x).mp pair), t, r, rfl, kept⟩

section
variable {user' access refresh : String} {previous : Option String}

theorem KeepsRefresh.fresh
    (proper : Proper (h ++ [⟨t', .issue user' previous access refresh⟩]) now)
    (kept : KeepsRefresh life h t user a r) : a ≠ access ∧ r ≠ refresh := by
  obtain ⟨_, there⟩ := kept.exists_mem
  exact proper.apart_of_append there (List.mem_singleton_self _) _ rfl _ rfl

theorem Recorded.refresh_issue (recorded : Recorded life h s)
    (proper : Proper (h ++ [⟨t', .issue user' previous access refresh⟩]) now) (r : String)
    (g : Grant τ) :
    Assoc.get? r (s.issue life t' user' previous access refresh).refresh = some g ↔
      ∃ t user a, g = ⟨user, t + life.refresh⟩ ∧
        KeepsRefresh life (h ++ [⟨t', .issue user' previous access refresh⟩]) t user a r := by
  simp only [recorded.coherent.get?_refresh_issue, keepsRefresh_snoc_issue]
  constructor
  · rintro (⟨rfl, rfl⟩ | ⟨_, hp, there, lasting⟩)
    · exact ⟨t', user', access, rfl, .inl ⟨rfl, rfl, rfl, rfl⟩⟩
    · obtain ⟨t, user, a, rfl, kept⟩ := (recorded.refresh r g).mp there
      exact ⟨t, user, a, rfl, .inr ⟨kept, hp, lasting⟩⟩
  · rintro ⟨t, user, a, rfl, ⟨rfl, rfl, rfl, rfl⟩ | ⟨kept, hp, lasting⟩⟩
    · exact .inl ⟨rfl, rfl⟩
    · have there := (recorded.refresh r _).mpr ⟨t, user, a, rfl, kept⟩
      exact .inr ⟨(kept.fresh proper).2, hp, there, lasting⟩

theorem Recorded.pairs_issue (recorded : Recorded life h s)
    (proper : Proper (h ++ [⟨t', .issue user' previous access refresh⟩]) now) (r a : String) :
    Assoc.get? r (s.issue life t' user' previous access refresh).pairs = some a ↔
      ∃ t user,
        KeepsRefresh life (h ++ [⟨t', .issue user' previous access refresh⟩]) t user a r := by
  simp only [recorded.coherent.get?_pairs_issue, keepsRefresh_snoc_issue]
  constructor
  · rintro (⟨rfl, rfl⟩ | ⟨_, hp, pair, lasting⟩)
    · exact ⟨t', user', .inl ⟨rfl, rfl, rfl, rfl⟩⟩
    · obtain ⟨t, user, kept⟩ := (recorded.pairs r a).mp pair
      have there := (recorded.refresh r _).mpr ⟨t, user, a, rfl, kept⟩
      exact ⟨t, user, .inr ⟨kept, hp, lasting _ there⟩⟩
  · rintro ⟨t, user, ⟨rfl, rfl, rfl, rfl⟩ | ⟨kept, hp, lasting⟩⟩
    · exact .inl ⟨rfl, rfl⟩
    · have pair := (recorded.pairs r a).mpr ⟨t, user, kept⟩
      have there := (recorded.refresh r _).mpr ⟨t, user, a, rfl, kept⟩
      refine .inr ⟨(kept.fresh proper).2, hp, pair, fun g hg => ?_⟩
      rw [there] at hg
      cases hg
      exact lasting

theorem Recorded.access_issue {ends latest : τ} (recorded : Recorded life h s)
    (proper : Proper (h ++ [⟨t', .issue user' previous access refresh⟩]) latest) (start : 0 ≤ now)
    (past : ∀ e ∈ h, e.time ≤ now) (came : t' ≤ now) (good : now < ends) :
    Assoc.get? a (s.issue life t' user' previous access refresh).access = some ⟨user, ends⟩ ↔
      ∃ t r, ends = t + life.access ∧
        KeepsAccess life (h ++ [⟨t', .issue user' previous access refresh⟩]) t user a r := by
  have before : Proper h t' := proper.of_append
  have old := recorded.access now start past
  simp only [recorded.coherent.get?_access_issue, keepsAccess_snoc_issue]
  constructor
  · rintro (⟨rfl, same⟩ | ⟨_, there, _, partner⟩)
    · cases same
      exact ⟨t', refresh, rfl, .inl ⟨rfl, rfl, rfl, rfl⟩⟩
    · obtain ⟨t, r, rfl, kept⟩ := (old a user ends good).mp there
      have pair := (recorded.paired before kept r).mpr rfl
      exact ⟨t, r, rfl, .inr ⟨kept, partner r _ pair (recorded.get?_refresh kept)⟩⟩
  · rintro ⟨t, r, rfl, ⟨rfl, rfl, rfl, rfl⟩ | ⟨kept, hp, lasting⟩⟩
    · exact .inl ⟨rfl, rfl⟩
    · have there := (old a user _ good).mpr ⟨t, r, rfl, kept⟩
      -- A token that is good at `now` was not among those that this issue found past their time.
      have outlasts : ¬ t + life.access ≤ t' := not_le.mpr (lt_of_le_of_lt came good)
      refine .inr ⟨(kept.keepsRefresh.fresh proper).1, there, outlasts, fun x g pair hg => ?_⟩
      obtain rfl := (recorded.paired before kept x).mp pair
      rw [recorded.get?_refresh kept] at hg
      cases hg
      exact ⟨hp, lasting⟩

theorem Recorded.issue (recorded : Recorded life h s)
    (proper : Proper (h ++ [⟨t', .issue user' previous access refresh⟩]) now) :
    Recorded life (h ++ [⟨t', .issue user' previous access refresh⟩])
      (s.issue life t' user' previous access refresh) := by
  obtain ⟨ha, hr⟩ := proper.nonempty _ (List.mem_append_right _ (List.mem_singleton_self _)) _ rfl
  refine ⟨recorded.coherent.issue ha hr, recorded.refresh_issue proper,
    recorded.pairs_issue proper, fun now start past a user ends good => ?_⟩
  exact recorded.access_issue proper start (fun e he => past e (List.mem_append_left _ he))
    (past _ (List.mem_append_right _ (List.mem_singleton_self _))) good

end

/-! ### Runs -/

theorem Recorded.step {e : Event τ} (recorded : Recorded life h s)
    (proper : Proper (h ++ [e]) now) :
    Recorded life (h ++ [e]) (e.apply life s) := by
  obtain ⟨t, op⟩ := e
  cases op with
  | issue user previous access refresh => exact recorded.issue proper
  | checkAccess token => exact recorded.check rfl (by simp) (by simp)
  | checkRefresh token => exact recorded.check rfl (by simp) (by simp)
  | revokeAccess token => exact recorded.revokeAccess token
  | revokeRefresh token => exact recorded.revokeRefresh proper.of_append token
  | expireAccess => exact recorded.expireAccess

theorem after_recorded (life : Lifetimes τ) (proper : Proper h now) :
    Recorded life h (after life h) := by
  -- The clock of a beginning of the run stands at the time of the event that comes next.
  induction h using List.reverseRecOn generalizing now with
  | nil => exact empty_recorded
  | append_singleton h e ih =>
    rw [after_snoc]
    exact (ih proper.of_append).step proper

theorem checkRefresh_iff (life : Lifetimes τ) (proper : Proper h now) (r user : String) :
    (after life h).checkRefresh now r = some user ↔
      ∃ t previous a, now < t + life.refresh ∧
        Since h ⟨t, .issue user previous a r⟩ (Event.WithdrawsRefresh r) := by
  have recorded := after_recorded life proper
  rw [checkRefresh, valid?_eq_some_iff]
  constructor
  · rintro ⟨_, ends, there, good⟩
    obtain ⟨t, user, a, same, previous, since⟩ := (recorded.refresh r _).mp there
    cases same
    exact ⟨t, previous, a, good, since.mono fun f _ withdrawn => .inl withdrawn⟩
  · rintro ⟨t, previous, a, good, since⟩
    have kept : KeepsRefresh life h t user a r := by
      refine ⟨previous, since.mono fun f hf clears => ?_⟩
      rcases clears with withdrawn | ⟨_, late⟩
      · exact withdrawn
      · exact absurd (le_trans late (proper.time_le hf)) (not_le.mpr good)
    refine ⟨(proper.nonempty _ since.mem _ rfl).2, _, ?_, good⟩
    exact (recorded.refresh r _).mpr ⟨t, user, a, rfl, kept⟩

/-- An access token is good while it lasts, as long as neither it nor its refresh token has come to
an end. -/
theorem checkAccess_iff (life : Lifetimes τ) (proper : Proper h now) (a user : String) :
    (after life h).checkAccess now a = some user ↔
      ∃ t previous r, now < t + life.access ∧
        Since h ⟨t, .issue user previous a r⟩ (Event.WithdrawsAccess a r (t + life.refresh)) := by
  have recorded := (after_recorded life proper).access now proper.zero_le fun e => proper.time_le
  rw [checkAccess, valid?_eq_some_iff]
  constructor
  · rintro ⟨_, ends, there, good⟩
    obtain ⟨t, r, rfl, previous, since⟩ := (recorded a user ends good).mp there
    exact ⟨t, previous, r, good, since⟩
  · rintro ⟨t, previous, r, good, since⟩
    refine ⟨(proper.nonempty _ since.mem _ rfl).1, _, ?_, good⟩
    exact (recorded a user _ good).mpr ⟨t, r, rfl, previous, since⟩

theorem checkRefresh_stays_none {before later : List (Event τ)} {check : Event τ}
    (proper : Proper (before ++ check :: later) now)
    (issued : ∃ e ∈ before, ∃ a, e.operation.pair? = some (a, r))
    (none_ : (after life before).checkRefresh check.time r = none) :
    (after life (before ++ check :: later)).checkRefresh now r = none := by
  refine Option.eq_none_iff_forall_ne_some.mpr fun user good => ?_
  obtain ⟨t, previous, a, lasting, since⟩ := (checkRefresh_iff life proper r user).mp good
  obtain ⟨e, he, a', made⟩ := issued
  have first : ⟨t, .issue user previous a r⟩ ∉ check :: later :=
    fun hf => (proper.apart_of_append he hf _ made _ rfl).2 rfl
  have earlier : check.time < t + life.refresh :=
    lt_of_le_of_lt (proper.time_le (List.mem_append_right _ List.mem_cons_self)) lasting
  have then_ := (checkRefresh_iff life proper.of_append r user).mpr
    ⟨t, previous, a, earlier, since.of_append first⟩
  rw [none_] at then_
  cases then_

theorem checkAccess_stays_none {before later : List (Event τ)} {check : Event τ}
    (proper : Proper (before ++ check :: later) now)
    (issued : ∃ e ∈ before, ∃ r, e.operation.pair? = some (a, r))
    (none_ : (after life before).checkAccess check.time a = none) :
    (after life (before ++ check :: later)).checkAccess now a = none := by
  refine Option.eq_none_iff_forall_ne_some.mpr fun user good => ?_
  obtain ⟨t, previous, r, lasting, since⟩ := (checkAccess_iff life proper a user).mp good
  obtain ⟨e, he, r', made⟩ := issued
  have first : ⟨t, .issue user previous a r⟩ ∉ check :: later :=
    fun hf => (proper.apart_of_append he hf _ made _ rfl).1 rfl
  have earlier : check.time < t + life.access :=
    lt_of_le_of_lt (proper.time_le (List.mem_append_right _ List.mem_cons_self)) lasting
  have then_ := (checkAccess_iff life proper.of_append a user).mpr
    ⟨t, previous, r, earlier, since.of_append first⟩
  rw [none_] at then_
  cases then_

/-- A check after any run tells exactly whose token it is and whether it was issued, still lasts and
has not been withdrawn since; and a token that a check has found no longer good never is again. -/
theorem checks_exact (life : Lifetimes τ) (proper : Proper h now) :
    (∀ r user, (after life h).checkRefresh now r = some user ↔
      ∃ t previous a, now < t + life.refresh ∧
        Since h ⟨t, .issue user previous a r⟩ (Event.WithdrawsRefresh r)) ∧
    (∀ a user, (after life h).checkAccess now a = some user ↔
      ∃ t previous r, now < t + life.access ∧
        Since h ⟨t, .issue user previous a r⟩ (Event.WithdrawsAccess a r (t + life.refresh))) ∧
    (∀ before t r later, h = before ++ ⟨t, .checkRefresh r⟩ :: later →
      (∃ e ∈ before, ∃ a, e.operation.pair? = some (a, r)) →
      (after life before).checkRefresh t r = none → (after life h).checkRefresh now r = none) ∧
    (∀ before t a later, h = before ++ ⟨t, .checkAccess a⟩ :: later →
      (∃ e ∈ before, ∃ r, e.operation.pair? = some (a, r)) →
      (after life before).checkAccess t a = none → (after life h).checkAccess now a = none) := by
  refine ⟨checkRefresh_iff life proper, checkAccess_iff life proper, ?_, ?_⟩
  · rintro before t r later rfl issued none_
    exact checkRefresh_stays_none proper issued none_
  · rintro before t a later rfl issued none_
    exact checkAccess_stays_none proper issued none_

def renewalHistory : List (Event Int) :=
  [⟨0, .issue "u" none "a1" "r1"⟩, ⟨3, .issue "u" (some "r1") "a2" "r2"⟩, ⟨4, .checkAccess "a1"⟩,
    ⟨6, .revokeAccess "a2"⟩]

theorem checks_exact_renewalHistory :
    Proper renewalHistory 7 ∧
      (after ⟨5, 10⟩ renewalHistory).checkRefresh 7 "r2" = some "u" ∧
      (after ⟨5, 10⟩ renewalHistory).checkAccess 7 "a1" = none := by
  have proper : Proper renewalHistory 7 := ⟨by decide, by decide, by decide⟩
  obtain ⟨refresh, _, _, stays⟩ := checks_exact (⟨5, 10⟩ : Lifetimes Int) proper
  refine ⟨proper, (refresh "r2" "u").mpr ⟨3, some "r1", "a2", by decide, ?_⟩, ?_⟩
  · refine ⟨[⟨0, .issue "u" none "a1" "r1"⟩], [⟨4, .checkAccess "a1"⟩, ⟨6, .revokeAccess "a2"⟩],
      rfl, ?_⟩
    simp [Event.WithdrawsRefresh]
  · have made : Operation.pair? (.issue "u" none "a1" "r1") = some ("a1", "r1") := rfl
    refine stays [⟨0, .issue "u" none "a1" "r1"⟩, ⟨3, .issue "u" (some "r1") "a2" "r2"⟩] 4 "a1"
      [⟨6, .revokeAccess "a2"⟩] rfl ⟨_, List.mem_cons_self, "r1", made⟩ ?_
    decide +kernel

end FileGate.TokenStore
