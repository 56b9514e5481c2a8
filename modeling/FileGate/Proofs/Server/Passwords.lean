import FileGate.Proofs.Server.Grants
import FileGate.Proofs.Server.Shares
import FileGate.Proofs.Text.Credentials

/-! What a password opens: a login of its user, and a share. Passwords are told apart exactly as long
as they are written in ASCII; beyond it the comparison itself gives up. -/
namespace FileGate

def IsAscii (s : String) : Prop := ∀ c ∈ s.toList, c.toNat < 128

instance (s : String) : Decidable (IsAscii s) :=
  List.decidableBAll (fun c : Char => c.toNat < 128) s.toList

namespace Server

variable {a b : String}

theorem sameSecret_of_ascii (ha : IsAscii a) (hb : IsAscii b) : sameSecret a b = .ok (a == b) := by
  have both : (a.toList.all (·.toNat < 128) && b.toList.all (·.toNat < 128)) = true := by
    simp only [Bool.and_eq_true, List.all_eq_true, decide_eq_true_eq]
    exact ⟨ha, hb⟩
  rw [sameSecret, if_pos both]

theorem sameSecret_of_not_ascii (other : ¬ (IsAscii a ∧ IsAscii b)) :
    sameSecret a b = .error .uncomparable := by
  have some_ : ¬ (a.toList.all (·.toNat < 128) && b.toList.all (·.toNat < 128)) = true := by
    simp only [Bool.and_eq_true, List.all_eq_true, decide_eq_true_eq]
    exact other
  rw [sameSecret, if_neg some_]

variable {τ : Type} {s : Server τ} {r : Asked}

/-! ### Logins -/

/-- A request for tokens with a name and a password. -/
structure LogsIn (s : Server τ) (r : Asked) (user given : String) : Prop where
  forTokens : s.ForTokens r
  seeks : Seeks r "password"
  username : r.field "username" = user
  named : user ≠ ""
  password : r.field "password" = given

section
variable [LE τ] [DecidableLE τ] [Add τ] {user given stored : String}

theorem LogsIn.serveToken (h : s.LogsIn r user given) :
    s.serveToken r =
      match Assoc.get? user s.users with
      | none => (.ok (.unauthorized "Bearer"), s)
      | some stored =>
        match sameSecret stored given with
        | .error e => (.error e, s)
        | .ok false => (.ok (.unauthorized "Bearer"), s)
        | .ok true => s.sendTokens user (r.field "cookie_path") none := by
  have named : r.field "username" ≠ "" := by
    rw [h.username]
    exact h.named
  have step : s.serveToken r = _ := serveToken_of_password h.seeks named
  rw [h.username, h.password] at step
  exact step

theorem LogsIn.unknown (h : s.LogsIn r user given) (none_ : Assoc.get? user s.users = none) :
    s.handle r = ((Response.unauthorized "Bearer").sent r.method, s) := by
  rw [h.forTokens.handle, h.serveToken, none_]

theorem LogsIn.wrong (h : s.LogsIn r user given) (there : Assoc.get? user s.users = some stored)
    (ascii : IsAscii stored ∧ IsAscii given) (wrong : stored ≠ given) :
    s.handle r = ((Response.unauthorized "Bearer").sent r.method, s) := by
  have compared : sameSecret stored given = .ok false := by
    rw [sameSecret_of_ascii ascii.1 ascii.2, beq_eq_false_iff_ne.mpr wrong]
  rw [h.forTokens.handle, h.serveToken, there]
  simp only [compared]

theorem LogsIn.uncomparable (h : s.LogsIn r user given)
    (there : Assoc.get? user s.users = some stored) (other : ¬ (IsAscii stored ∧ IsAscii given)) :
    s.handle r = ((Response.page 500).sent r.method, s) := by
  rw [h.forTokens.handle, h.serveToken, there]
  simp only [sameSecret_of_not_ascii other]

theorem LogsIn.right (h : s.LogsIn r user given) (there : Assoc.get? user s.users = some given)
    (ascii : IsAscii given) :
    (s.Tells (r.field "cookie_path") → (s.handle r).1.status = 200) ∧
      (¬ s.Tells (r.field "cookie_path") → (s.handle r).1.status = 500) := by
  have earns : s.Earns r (r.field "username") none := by
    refine .password h.seeks (h.username.trans_ne h.named) (h.username.symm ▸ there) ?_
    rw [h.password, sameSecret_of_ascii ascii ascii, beq_self_eq_true]
  obtain ⟨_, answered, failed⟩ := h.forTokens.handle_of_earns earns
  refine ⟨fun tells => ?_, fun silent => failed _ (sendTokens_of_not_tells silent)⟩
  obtain ⟨a, sent, status⟩ := sendTokens_of_tells tells (r.field "username") none
  rw [answered a sent, Response.sent_status, status]

theorem LogsIn.status (h : s.LogsIn r user given) :
    ((s.handle r).1.status = 200 ↔
      Assoc.get? user s.users = some given ∧ IsAscii given ∧ s.Tells (r.field "cookie_path")) ∧
    ((s.handle r).1.status = 401 ↔ Assoc.get? user s.users ≠ some given ∧
      ∀ stored, Assoc.get? user s.users = some stored → IsAscii stored ∧ IsAscii given) ∧
    ((s.handle r).1.status = 500 ↔
      ∃ stored, Assoc.get? user s.users = some stored ∧
        (¬ (IsAscii stored ∧ IsAscii given) ∨
          stored = given ∧ ¬ s.Tells (r.field "cookie_path"))) := by
  cases there : Assoc.get? user s.users with
  | none =>
    rw [h.unknown there, Response.sent_status]
    simp [Response.unauthorized]
  | some stored =>
    -- Whether the two can be compared at all comes before whether they are the same.
    by_cases ascii : IsAscii stored ∧ IsAscii given
    · by_cases right : stored = given
      · subst right
        obtain ⟨granted, undated⟩ := h.right there ascii.1
        by_cases tells : s.Tells (r.field "cookie_path")
        · rw [granted tells]
          simp [tells, ascii.1]
        · rw [undated tells]
          simp [tells]
      · rw [h.wrong there ascii right, Response.sent_status]
        simp [Response.unauthorized, right, ascii]
    · rw [h.uncomparable there ascii, Response.sent_status]
      refine ⟨iff_of_false (by decide) ?_, iff_of_false (by decide) ?_, iff_of_true rfl ?_⟩
      · rintro ⟨same, plain, _⟩
        rw [Option.some.inj same] at ascii
        exact ascii ⟨plain, plain⟩
      · rintro ⟨_, all⟩
        exact ascii (all stored rfl)
      · exact ⟨stored, rfl, .inl ascii⟩

end

/-! ### Shares -/

def shareName (part : List Char) : List Char := (Text.cut '/' part).1

def readShared (s : Server τ) (share : Shared) (part : List Char) : Response :=
  let target := Path.normalize (Path.join share.root (Text.cut '/' part).2)
  if Path.within target share.root then serveRead s.tree target else .ofStatus 404

def unlocked (s : Server τ) (part : List Char) (share : Shared) : Server τ :=
  let open_ : Shared := { share with password := none }
  { s with shares := Assoc.put (String.ofList (shareName part)) open_ s.shares }

/-- A request that reads from a locked share and brings a name and a password. -/
structure Unlocks (s : Server τ) (r : Asked) (part : List Char) (share : Shared)
    (password user given : String) : Prop where
  files : s.ForFiles r ("shares/".toList ++ part)
  longer : part ≠ []
  method : r.method = "GET"
  found : s.shareAt? part = some share
  locked : share.password = some password
  nonempty : password ≠ ""
  header : r.header? "Authorization" = some (Authorization.basic user given)
  plain : ':' ∉ user.toList

section
variable {part : List Char} {share : Shared} {password user given : String}

theorem serveShare_get (found : s.shareAt? part = some share) (get : r.method = "GET") :
    s.serveShare r part = match admits share r with
      | .error e => .error e
      | .ok false => challenge (shareName part)
      | .ok true => .ok (s.readShared share part) := by
  unfold shareAt? at found
  unfold serveShare
  dsimp only
  rw [found]
  simp only [get, bne_self_eq_false, Bool.false_eq_true, if_false]
  cases admits share r with
  | error e => rfl
  | ok open_ =>
    cases open_ with
    | false => rfl
    | true =>
      unfold readShared
      rw [share.root_eq]
      dsimp only
      split
      · rfl
      · rfl

theorem admits_of_unlocked (share : Shared) (r : Asked) :
    admits { share with password := none } r = .ok true := by
  unfold admits
  simp

theorem Unlocks.admits (h : s.Unlocks r part share password user given) :
    admits share r = sameSecret given password := by
  have wanted : password.isEmpty = false := by simpa using h.nonempty
  unfold Server.admits
  rw [h.header, Authorization.parse_basic, h.locked]
  simp only [Option.getD_some, wanted, Bool.false_eq_true, if_false, beq_self_eq_true, if_true,
    Authorization.decodeBasic?_encode h.plain]

variable [LE τ] [DecidableLE τ] [Add τ]

theorem Unlocks.handle (h : s.Unlocks r part share password user given) :
    s.handle r = (match sameSecret given password with
      | .error _ => .page 500
      | .ok true => s.readShared share part
      | .ok false => match challenge (shareName part) with
        | .error _ => .page 500
        | .ok a => a, s) := by
  have sent (a : Response) : a.sent "GET" = a := rfl
  have method : r.method ≠ "OPTIONS" := by
    rw [h.method]
    decide
  rw [handle_share h.files method (sharePart?_eq_some_iff.mpr ⟨rfl, h.longer⟩),
    serveShare_get h.found h.method, h.admits, h.method]
  cases sameSecret given password with
  | error e => rfl
  | ok same =>
    cases same with
    | false =>
      dsimp only
      cases challenge (shareName part) with
      | error e => rfl
      | ok a => rfl
    | true => rfl

theorem Unlocks.handle_unlocked (h : s.Unlocks r part share password user given) :
    ((s.unlocked part share).handle r).1 = s.readShared share part := by
  have method : r.method ≠ "OPTIONS" := by
    rw [h.method]
    decide
  have files : (s.unlocked part share).ForFiles r ("shares/".toList ++ part) := h.files
  have found : (s.unlocked part share).shareAt? part = some { share with password := none } :=
    Assoc.get?_put_self _ _ _
  rw [handle_share files method (sharePart?_eq_some_iff.mpr ⟨rfl, h.longer⟩),
    serveShare_get found h.method, admits_of_unlocked, h.method]
  rfl

theorem Unlocks.answer (h : s.Unlocks r part share password user given) :
    (IsAscii given ∧ IsAscii password → given = password →
      (s.handle r).1 = ((s.unlocked part share).handle r).1) ∧
    (IsAscii given ∧ IsAscii password → given ≠ password → '\n' ∉ shareName part →
      '\r' ∉ shareName part → (s.handle r).1 = .unauthorized
        ("Basic realm=\"Password needed for " ++ String.ofList (shareName part) ++ "\"")) ∧
    (IsAscii given ∧ IsAscii password → given ≠ password →
      '\n' ∈ shareName part ∨ '\r' ∈ shareName part → (s.handle r).1 = .page 500) ∧
    (¬ (IsAscii given ∧ IsAscii password) → (s.handle r).1 = .page 500) ∧
    (s.handle r).2 = s := by
  rw [h.handle, h.handle_unlocked]
  refine ⟨fun ascii right => ?_, fun ascii wrong line return_ => ?_, fun ascii wrong end_ => ?_,
    fun other => ?_, rfl⟩
  · rw [sameSecret_of_ascii ascii.1 ascii.2, beq_iff_eq.mpr right]
  · have writable : (shareName part).any (fun c => c == '\n' || c == '\r') = false := by
      simp only [List.any_eq_false, Bool.or_eq_true, beq_iff_eq]
      rintro c hc (rfl | rfl)
      · exact line hc
      · exact return_ hc
    rw [sameSecret_of_ascii ascii.1 ascii.2, beq_eq_false_iff_ne.mpr wrong]
    simp only [challenge, writable, Bool.false_eq_true, if_false]
  · have unwritable : (shareName part).any (fun c => c == '\n' || c == '\r') = true := by
      simp only [List.any_eq_true, Bool.or_eq_true, beq_iff_eq]
      rcases end_ with line | return_
      · exact ⟨'\n', line, .inl rfl⟩
      · exact ⟨'\r', return_, .inr rfl⟩
    rw [sameSecret_of_ascii ascii.1 ascii.2, beq_eq_false_iff_ne.mpr wrong]
    simp only [challenge, unwritable, if_true]
  · rw [sameSecret_of_not_ascii other]

/-- A login gets a pair just for the password of its user, and a share opens just for its own; in
both cases as long as the two passwords that are compared are written in ASCII. Where one of them is
not, neither the right nor the wrong one is told so. -/
theorem password_decides (s : Server τ) :
    (∀ r user given, s.LogsIn r user given →
      ((s.handle r).1.status = 200 ↔
        Assoc.get? user s.users = some given ∧ IsAscii given ∧ s.Tells (r.field "cookie_path")) ∧
      ((s.handle r).1.status = 401 ↔ Assoc.get? user s.users ≠ some given ∧
        ∀ stored, Assoc.get? user s.users = some stored → IsAscii stored ∧ IsAscii given) ∧
      ((s.handle r).1.status = 500 ↔
        ∃ stored, Assoc.get? user s.users = some stored ∧
          (¬ (IsAscii stored ∧ IsAscii given) ∨
            stored = given ∧ ¬ s.Tells (r.field "cookie_path")))) ∧
    ∀ r part share password user given, s.Unlocks r part share password user given →
      (IsAscii given ∧ IsAscii password → given = password →
        (s.handle r).1 = ((s.unlocked part share).handle r).1) ∧
      (IsAscii given ∧ IsAscii password → given ≠ password → '\n' ∉ shareName part →
        '\r' ∉ shareName part → (s.handle r).1 = .unauthorized
          ("Basic realm=\"Password needed for " ++ String.ofList (shareName part) ++ "\"")) ∧
      (IsAscii given ∧ IsAscii password → given ≠ password →
        '\n' ∈ shareName part ∨ '\r' ∈ shareName part → (s.handle r).1 = .page 500) ∧
      (¬ (IsAscii given ∧ IsAscii password) → (s.handle r).1 = .page 500) ∧
      (s.handle r).2 = s :=
  ⟨fun _ _ _ logsIn => logsIn.status, fun _ _ _ _ _ _ unlocks => unlocks.answer⟩

end

def keyed (password : String) : Server Int :=
  { oneUser with
    users := [("u", password)]
    shares := [("s", { path := some "/", password := some password })] }

def askKeyed (given : String) : Asked :=
  ⟨"GET", "/api/v1/files/shares/s".toList, [("Authorization", Authorization.basic "v" given)], []⟩

theorem unlocks_keyed (password given : String) (nonempty : password ≠ "") :
    (keyed password).Unlocks (askKeyed given) "s".toList
      { path := some "/", password := some password } password "v" given where
  files := by
    refine ⟨⟨.files, ["", "api", "v1", "files"].map String.toList, true,
      ["GET", "PUT", "DELETE", "POST", "HEAD", "OPTIONS"], true⟩, rfl, ?_⟩
    change Route.resolve defaultRules "GET" "/api/v1/files/shares/s".toList = _
    decide +kernel
  longer := by decide
  method := rfl
  found := rfl
  locked := rfl
  nonempty := nonempty
  header := by
    have there : (askKeyed given).values "Authorization" = [Authorization.basic "v" given] := by
      rw [Asked.values, askKeyed]
      rfl
    rw [Asked.header?, there]
    rfl
  plain := by decide

theorem password_decides_keyed :
    (keyed "p").LogsIn login "u" "p" ∧ ((keyed "p").handle login).1.status = 200 ∧
      (keyed "p").Unlocks (askKeyed "q") "s".toList { path := some "/", password := some "p" }
        "p" "v" "q" ∧
      ((keyed "p").handle (askKeyed "q")).1 =
        .unauthorized "Basic realm=\"Password needed for s\"" := by
  obtain ⟨target, seeks, user, password, _⟩ := login_asks
  have logsIn : (keyed "p").LogsIn login "u" "p" :=
    ⟨forTokens_of_default rfl rfl target, seeks, user, by decide, password⟩
  have unlocks := unlocks_keyed "p" "q" (by decide)
  obtain ⟨logins, shares⟩ := password_decides (keyed "p")
  have tells : (keyed "p").Tells (login.field "cookie_path") :=
    .of_dated ⟨⟨300, rfl⟩, ⟨300, by decide⟩, ⟨86400, by decide⟩⟩ _
  refine ⟨logsIn, (logins _ _ _ logsIn).1.mpr ⟨rfl, by decide, tells⟩, unlocks, ?_⟩
  exact (shares _ _ _ _ _ _ unlocks).2.1 (by decide) (by decide) (by decide) (by decide)

def umlautLogin : Asked :=
  ⟨"POST", "/api/v1/auth/token".toList, [(contentType, formType)],
    Bytes.ofString "grant_type=password&username=u&password=%C3%A4"⟩

/-- The right password is not let in where it is not in ASCII. -/
theorem right_password_breaks :
    (keyed "ä").LogsIn umlautLogin "u" "ä" ∧ Assoc.get? "u" (keyed "ä").users = some "ä" ∧
      ((keyed "ä").handle umlautLogin).1.status = 500 ∧
      (keyed "ä").Unlocks (askKeyed "ä") "s".toList { path := some "/", password := some "ä" }
        "ä" "v" "ä" ∧
      ((keyed "ä").handle (askKeyed "ä")).1.status = 500 ∧
      (((keyed "ä").unlocked "s".toList { path := some "/", password := some "ä" }).handle
        (askKeyed "ä")).1.status = 200 := by
  have logsIn : (keyed "ä").LogsIn umlautLogin "u" "ä" :=
    ⟨forTokens_of_default rfl rfl (by decide +kernel), ⟨by decide +kernel, by decide +kernel⟩,
      by decide +kernel, by decide +kernel, by decide +kernel⟩
  have unlocks := unlocks_keyed "ä" "ä" (by decide)
  have other : ¬ (IsAscii "ä" ∧ IsAscii "ä") := by decide
  refine ⟨logsIn, rfl, ?_, unlocks, ?_, ?_⟩
  · rw [logsIn.uncomparable rfl other, Response.sent_status]
    rfl
  · rw [unlocks.answer.2.2.2.1 other]
    rfl
  · rw [unlocks.handle_unlocked]
    decide +kernel

end Server
end FileGate
