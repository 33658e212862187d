import BankingAgent.Provider
import BankingAgent.Throttle.StaleCache
import Mathlib.Algebra.Order.Ring.Rat

/-!
# `security/oidc.py`: who signed the token

`verify` looks at the header of a token, fetches the keys of the issuer if those it has are older
than the cache lives, and checks the token against the key with the `kid` of the header. There is
no await between its first line and its last, so the calls of all requests follow one another.

The lookup of the key asks a `PyJWKClient` that was never initialised, which raises; the key is
then looked for in the document by hand. Without a `kid` the client itself is taken for the key.

The readings of the clock are subtracted exactly here; `time.monotonic()` is a float.

* `accepted_token_signed` — an accepted token was checked against a key of the document that was
  fetched last.
* `fetches_take_time` — how often the issuer is asked.
-/

namespace BankingAgent

open StaleCache

/-! ## What is not in the repository -/

/-- The header of a token; `jwt` checks that `kid` is a string. -/
structure JoseHeader : Type where
  kid : Option String
  alg : Option Json

/-- What `_find_key` returns: a key, or the client it has made. -/
inductive KeyArgument (K : Type) : Type where
  | client
  | key (k : K)

/-- `jwt`, and `str.split`. Where nothing is returned an exception is raised. -/
structure PyJwt (K : Type) : Type where
  /-- `get_unverified_header(token)` -/
  getUnverifiedHeader : String → Option JoseHeader
  /-- `PyJWKClient.__new__(PyJWKClient).get_signing_key(kid)` -/
  getSigningKey : String → Option K
  /-- `PyJWK(key_data).key` -/
  pyJWK : Json → Option K
  /-- `decode(token, key, algorithms=[alg], issuer=issuer, audience=audience, …)`, at an instant -/
  decode (now : Instant) (token : String) (key : KeyArgument K) (alg issuer audience : String) :
    Option (List (String × Json))
  /-- `text.split()` -/
  split : String → List String

/-- The client was not initialised, and is no key. -/
structure PyJwt.Documented {K : Type} (lib : PyJwt K) : Prop where
  uninitialised : ∀ kid, lib.getSigningKey kid = none
  no_key : ∀ now token alg issuer audience,
    lib.decode now token .client alg issuer audience = none

/-! ## The verifier -/

/-- `ALLOWED_ALGORITHMS`. -/
def allowedAlgorithms : List String := ["RS256", "RS384", "RS512", "ES256", "ES384", "ES512"]

/-- `TokenClaims`, as they stand in the token. -/
structure TokenClaims : Type where
  sub : Json
  tenantId : Json
  roles : Json
  scopes : List String
  iss : Json
  aud : Json
  exp : Json
  nbf : Json
  iat : Json
  jti : Json
  sid : Json

/-- `OIDCVerifier`. -/
structure OIDCVerifier : Type where
  issuer : String
  audience : String
  jwksUrl : String
  cacheTtl : ℤ
  jwksCache : Json
  jwksLastFetch : ℚ

/-- `OIDCVerifier(issuer, audience, jwks_url, cache_ttl_seconds)`. -/
def OIDCVerifier.new (issuer audience jwksUrl : String) (cacheTtl : ℤ) : OIDCVerifier :=
  ⟨issuer, audience, jwksUrl, cacheTtl, .obj [], 0⟩

/-- A call of `verify`: the token, what `time.monotonic()` reads, what the wall clock reads, and
the document at the URL; none if the request fails or the answer is no JSON. -/
structure Verification : Type where
  token : String
  monotonic : ℚ
  now : Instant
  response : Option Json

/-- What a call returns, whom it has asked, and the verifier afterwards. -/
structure Verified : Type where
  claims : Option TokenClaims
  request : Request Json
  verifier : OIDCVerifier

section Verify

variable {K : Type} (lib : PyJwt K)

/-- The claims of a payload; `scope` has to be a string. -/
def TokenClaims.ofPayload (payload : List (String × Json)) : Option TokenClaims :=
  let get (name : String) (default : Json) : Json := ((Json.obj payload).get? name).getD default
  match get "scope" (.str "") with
  | .str scope =>
    some { sub := get "sub" (.str ""), tenantId := get "tenant_id" (.str ""),
           roles := get "roles" (.arr []), scopes := lib.split scope, iss := get "iss" (.str ""),
           aud := get "aud" (.str ""), exp := get "exp" (.int 0), nbf := get "nbf" (.int 0),
           iat := get "iat" (.int 0), jti := get "jti" (.str ""), sid := get "sid" (.str "") }
  | _ => none

namespace OIDCVerifier

/-- `_get_jwks`. -/
def getJwks (v : OIDCVerifier) (now : ℚ) (response : Option Json) :
    Option Json × Request Json × OIDCVerifier :=
  if v.jwksCache.truthy = true ∧ now - v.jwksLastFetch < v.cacheTtl then
    (some v.jwksCache, .none, v)
  else if v.jwksUrl = "" then (none, .none, v)
  else match response with
    | some document =>
      (some document, .fetched document, { v with jwksCache := document, jwksLastFetch := now })
    | none => (if v.jwksCache.truthy then some v.jwksCache else none, .failed, v)

/-- The loop of `_find_key` over the items of `keys`. -/
def findIn (kid : String) : List Json → Except PyError (Option K)
  | [] => .ok none
  | .obj fields :: rest =>
    if ((Json.obj fields).get? "kid").bind Json.str? = some kid then
      match lib.pyJWK (.obj fields) with
      | some key => .ok (some key)
      | none => findIn kid rest
    else findIn kid rest
  | _ :: _ => .error .attributeError

/-- The manual lookup of `_find_key`. -/
def lookUp (jwks : Json) (kid : String) : Except PyError (Option K) :=
  match jwks with
  | .obj fields => do findIn lib kid (← (((Json.obj fields).get? "keys").getD (.arr [])).iterate)
  | _ => .error .attributeError

/-- `_find_key`. -/
def findKey (jwks : Json) : Option String → Except PyError (Option (KeyArgument K))
  | none => .ok (some .client)
  | some kid =>
    if kid = "" then .ok (some .client)
    else match lib.getSigningKey kid with
      | some key => .ok (some (.key key))
      | none => (lookUp lib jwks kid).map (Option.map .key)

/-- `verify`, from the document on. -/
def check (v : OIDCVerifier) (call : Verification) (kid : Option String) (alg : String)
    (jwks : Json) : Option TokenClaims :=
  if jwks.truthy then
    match findKey lib jwks kid with
    | .ok (some key) =>
      (lib.decode call.now call.token key alg v.issuer v.audience).bind (TokenClaims.ofPayload lib)
    | _ => none
  else none

/-- `verify`, up to the document: the `kid` and the algorithm of a token that is looked into. -/
def header? (v : OIDCVerifier) (token : String) : Option (Option String × String) :=
  if token = "" ∨ v.issuer = "" then none
  else match lib.getUnverifiedHeader token with
    | none => none
    | some header =>
      match header.alg.getD (.str "") with
      | .str alg =>
        if alg ∉ allowedAlgorithms then none
        else if alg = "none" then none
        else some (header.kid, alg)
      | _ => none

/-- `verify`. -/
def verify (v : OIDCVerifier) (call : Verification) : Verified :=
  match v.header? lib call.token with
  | none => ⟨none, .none, v⟩
  | some (kid, alg) =>
    let (jwks, request, v') := v.getJwks call.monotonic call.response
    ⟨jwks.bind (v.check lib call kid alg), request, v'⟩

/-- The verifier after some calls. -/
def after (v : OIDCVerifier) (calls : List Verification) : OIDCVerifier :=
  calls.foldl (fun v call => (v.verify lib call).verifier) v

/-- The documents that some calls fetch, and when. -/
def fetches (v : OIDCVerifier) : List Verification → List (ℚ × Json)
  | [] => []
  | call :: calls =>
    ((v.verify lib call).request.document?.map (Prod.mk call.monotonic)).toList ++
      (v.verify lib call).verifier.fetches calls

end OIDCVerifier

/-- The claims were read from the token after it was checked against a key of the document. -/
inductive TokenClaims.SignedUnder (issuer audience : String) (call : Verification)
    (document : Json) (claims : TokenClaims) : Prop
  | intro {kid alg : String} {keys : List Json} {keyData : Json} {key : K}
      {payload : List (String × Json)}
      (header : lib.getUnverifiedHeader call.token = some ⟨some kid, some (.str alg)⟩)
      (kid_ne : kid ≠ "") (allowed : alg ∈ allowedAlgorithms)
      (listed : document.get? "keys" = some (.arr keys)) (mem : keyData ∈ keys)
      (named : keyData.get? "kid" = some (.str kid)) (parsed : lib.pyJWK keyData = some key)
      (verified : lib.decode call.now call.token (.key key) alg issuer audience = some payload)
      (read : TokenClaims.ofPayload lib payload = some claims) :
      SignedUnder issuer audience call document claims

/-! ## One call -/

namespace OIDCVerifier

variable {lib} {v : OIDCVerifier} {call : Verification} {kid? : Option String} {alg : String}
  {jwks : Json} {claims : TokenClaims}

/-- What the loop finds is a key of an item with the `kid`. -/
theorem of_findIn {kid : String} {keys : List Json} {key : K}
    (h : findIn lib kid keys = .ok (some key)) :
    ∃ keyData ∈ keys, keyData.get? "kid" = some (.str kid) ∧ lib.pyJWK keyData = some key := by
  induction keys with
  | nil => cases h
  | cons item keys ih =>
    have later : findIn lib kid keys = .ok (some key) → ∃ keyData ∈ item :: keys,
        keyData.get? "kid" = some (.str kid) ∧ lib.pyJWK keyData = some key := by
      intro hrest
      obtain ⟨keyData, hmem, hkey⟩ := ih hrest
      exact ⟨keyData, List.mem_cons_of_mem _ hmem, hkey⟩
    cases item with
    | obj fields =>
      rw [findIn] at h
      split at h
      · rename_i hkid
        cases hparse : lib.pyJWK (.obj fields) with
        | none =>
          rw [hparse] at h
          exact later h
        | some parsed =>
          rw [hparse] at h
          cases h
          obtain ⟨value, hvalue, hstr⟩ := Option.bind_eq_some_iff.mp hkid
          cases value <;> cases hstr
          exact ⟨_, List.mem_cons_self, hvalue, hparse⟩
      · exact later h
    | _ => cases h

theorem of_lookUp {kid : String} {key : K} (h : lookUp lib jwks kid = .ok (some key)) :
    ∃ keys keyData, jwks.get? "keys" = some (.arr keys) ∧ keyData ∈ keys ∧
      keyData.get? "kid" = some (.str kid) ∧ lib.pyJWK keyData = some key := by
  cases jwks with
  | obj fields =>
    rw [lookUp] at h
    cases hget : (Json.obj fields).get? "keys" with
    | none =>
      rw [hget] at h
      cases h
    | some value =>
      rw [hget] at h
      cases value with
      | arr items =>
        obtain ⟨keyData, hmem, hnamed, hparsed⟩ := of_findIn h
        exact ⟨items, keyData, rfl, hmem, hnamed, hparsed⟩
      | str s =>
        obtain ⟨keyData, hmem, hnamed, -⟩ := of_findIn h
        obtain ⟨c, -, rfl⟩ := List.mem_map.mp hmem
        cases hnamed
      | obj fields =>
        obtain ⟨keyData, hmem, hnamed, -⟩ := of_findIn h
        obtain ⟨f, -, rfl⟩ := List.mem_map.mp hmem
        cases hnamed
      | _ => cases h
  | _ => cases h

/-- What `_find_key` finds, if it is a key. -/
theorem of_findKey (hlib : lib.Documented) {key : K}
    (h : findKey lib jwks kid? = .ok (some (.key key))) :
    ∃ kid, kid? = some kid ∧ kid ≠ "" ∧ lookUp lib jwks kid = .ok (some key) := by
  cases kid? with
  | none => cases h
  | some kid =>
    rw [findKey, hlib.uninitialised] at h
    split at h
    · cases h
    · rename_i hne
      refine ⟨kid, rfl, hne, ?_⟩
      cases hfound : lookUp lib jwks kid with
      | error e =>
        rw [hfound] at h
        cases h
      | ok found =>
        rw [hfound] at h
        obtain ⟨key', rfl, hkey⟩ := Option.map_eq_some_iff.mp (Except.ok.inj h)
        cases hkey
        rfl

theorem of_header? {token : String} (h : v.header? lib token = some (kid?, alg)) :
    lib.getUnverifiedHeader token = some ⟨kid?, some (.str alg)⟩ ∧ alg ∈ allowedAlgorithms := by
  rw [header?] at h
  split at h
  · cases h
  · cases hheader : lib.getUnverifiedHeader token with
    | none =>
      rw [hheader] at h
      cases h
    | some header =>
      obtain ⟨kid, alg'⟩ := header
      rw [hheader] at h
      cases alg' with
      | none => cases h
      | some value =>
        cases value with
        | str text =>
          simp only [Option.getD_some] at h
          split_ifs at h with hallowed hnone
          cases h
          exact ⟨rfl, hallowed⟩
        | _ => cases h

/-- **What is accepted** was signed under the document that it was checked against. -/
theorem signed_of_check (hlib : lib.Documented)
    (hheader : v.header? lib call.token = some (kid?, alg))
    (h : v.check lib call kid? alg jwks = some claims) :
    jwks.truthy = true ∧ claims.SignedUnder lib v.issuer v.audience call jwks := by
  rw [check] at h
  split at h
  · rename_i htruthy
    refine ⟨htruthy, ?_⟩
    split at h
    · rename_i key hkey
      obtain ⟨payload, hdecode, hread⟩ := Option.bind_eq_some_iff.mp h
      cases key with
      | client => rw [hlib.no_key] at hdecode; cases hdecode
      | key k =>
        obtain ⟨kid, rfl, hne, hlookup⟩ := of_findKey hlib hkey
        obtain ⟨keys, keyData, hlisted, hmem, hnamed, hparsed⟩ := of_lookUp hlookup
        obtain ⟨hget, hallowed⟩ := of_header? hheader
        exact .intro hget hne hallowed hlisted hmem hnamed hparsed hdecode hread
    · cases h
  · cases h

/-! ## The cache -/

/-- The cache of the verifier. -/
def cache (v : OIDCVerifier) : Cache Json ℚ := ⟨v.jwksCache, v.jwksLastFetch⟩

/-- The verifier with another cache. -/
def withCache (v : OIDCVerifier) (c : Cache Json ℚ) : OIDCVerifier :=
  { v with jwksCache := c.document, jwksLastFetch := c.lastFetch }

/-- The look at the cache that a call comes to. Where there is no URL nobody answers. -/
def look? (lib : PyJwt K) (v : OIDCVerifier) (call : Verification) : Option (ℚ × Option Json) :=
  (v.header? lib call.token).map fun _ =>
    (call.monotonic, if v.jwksUrl = "" then none else call.response)

/-- `_get_jwks` is a look at the cache. -/
theorem getJwks_look (v : OIDCVerifier) (now : ℚ) (response : Option Json) :
    let answer := if v.jwksUrl = "" then none else response
    (v.getJwks now response).2.1.document? =
        (v.cache.look Json.truthy (v.cacheTtl : ℚ) now answer).1.document? ∧
      (v.getJwks now response).2.2 =
        v.withCache (v.cache.look Json.truthy (v.cacheTtl : ℚ) now answer).2 := by
  intro answer
  by_cases hfresh : v.jwksCache.truthy = true ∧ now - v.jwksLastFetch < v.cacheTtl
  · have hget : v.getJwks now response = (some v.jwksCache, .none, v) := if_pos hfresh
    rw [hget, look_of_fresh hfresh]
    exact ⟨rfl, rfl⟩
  · rw [getJwks.eq_def, if_neg hfresh]
    by_cases hurl : v.jwksUrl = ""
    · rw [if_pos hurl, show answer = none from if_pos hurl, look_of_failure hfresh]
      exact ⟨rfl, rfl⟩
    · rw [if_neg hurl, show answer = response from if_neg hurl]
      cases response with
      | none =>
        rw [look_of_failure hfresh]
        exact ⟨rfl, rfl⟩
      | some document =>
        rw [look_of_answer hfresh]
        exact ⟨rfl, rfl⟩

/-- What `_get_jwks` returns is held afterwards, and no older than it may be if nobody was asked. -/
theorem of_getJwks {now : ℚ} {response : Option Json} {document : Json}
    (h : (v.getJwks now response).1 = some document) :
    (v.getJwks now response).2.2.jwksCache = document ∧
      ((v.getJwks now response).2.1 = .none →
        now - (v.getJwks now response).2.2.jwksLastFetch < v.cacheTtl) := by
  unfold getJwks at h ⊢
  by_cases hfresh : v.jwksCache.truthy = true ∧ now - v.jwksLastFetch < v.cacheTtl
  · simp only [if_pos hfresh] at h ⊢
    exact ⟨Option.some.inj h, fun _ => hfresh.2⟩
  · by_cases hurl : v.jwksUrl = ""
    · simp only [if_neg hfresh, if_pos hurl] at h
      cases h
    · simp only [if_neg hfresh, if_neg hurl] at h ⊢
      cases response with
      | none =>
        obtain ⟨-, hdoc⟩ := Option.ite_none_right_eq_some.mp h
        exact ⟨Option.some.inj hdoc, nofun⟩
      | some d => exact ⟨Option.some.inj h, nofun⟩

/-- A call looks at the cache, or leaves it alone. -/
theorem verify_look (lib : PyJwt K) (v : OIDCVerifier) (call : Verification) :
    (∃ answer, v.look? lib call = some (call.monotonic, answer) ∧
      (v.verify lib call).request.document? =
        (v.cache.look Json.truthy (v.cacheTtl : ℚ) call.monotonic answer).1.document? ∧
      (v.verify lib call).verifier =
        v.withCache (v.cache.look Json.truthy (v.cacheTtl : ℚ) call.monotonic answer).2) ∨
    v.look? lib call = none ∧ (v.verify lib call).request.document? = none ∧
      (v.verify lib call).verifier = v := by
  rw [look?, verify]
  cases v.header? lib call.token with
  | none => exact .inr ⟨rfl, rfl, rfl⟩
  | some found =>
    obtain ⟨hrequest, hverifier⟩ := v.getJwks_look call.monotonic call.response
    exact .inl ⟨_, rfl, hrequest, hverifier⟩

@[simp] theorem withCache_cache (v : OIDCVerifier) : v.withCache v.cache = v := rfl

@[simp] theorem cache_withCache (v : OIDCVerifier) (c : Cache Json ℚ) : (v.withCache c).cache = c :=
  rfl

@[simp] theorem withCache_withCache (v : OIDCVerifier) (c c' : Cache Json ℚ) :
    (v.withCache c).withCache c' = v.withCache c' := rfl

@[simp] theorem look?_withCache (v : OIDCVerifier) (c : Cache Json ℚ) :
    (v.withCache c).look? lib = v.look? lib := rfl

/-- **A run of calls** is a run of looks at the cache. -/
theorem run_looks (lib : PyJwt K) (v : OIDCVerifier) (calls : List Verification) :
    v.after lib calls =
        v.withCache (v.cache.after Json.truthy (v.cacheTtl : ℚ) (calls.filterMap (v.look? lib))) ∧
      v.fetches lib calls =
        v.cache.fetches Json.truthy (v.cacheTtl : ℚ) (calls.filterMap (v.look? lib)) := by
  induction calls generalizing v with
  | nil => exact ⟨rfl, rfl⟩
  | cons call calls ih =>
    obtain ⟨hafter, hfetches⟩ := ih (v.verify lib call).verifier
    rw [after, List.foldl_cons, ← after, hafter, fetches, hfetches]
    rcases v.verify_look lib call with
      ⟨answer, hlook, hrequest, hverifier⟩ | ⟨hlook, hrequest, hverifier⟩
    · rw [hrequest, hverifier, List.filterMap_cons_some hlook, Cache.fetches]
      exact ⟨rfl, rfl⟩
    · rw [hrequest, hverifier, List.filterMap_cons_none hlook]
      exact ⟨rfl, rfl⟩

theorem after_concat (lib : PyJwt K) (v : OIDCVerifier) (calls : List Verification)
    (call : Verification) :
    v.after lib (calls ++ [call]) = ((v.after lib calls).verify lib call).verifier := by
  rw [after, after, List.foldl_append, List.foldl_cons, List.foldl_nil]

/-- **What the verifier holds** is what was fetched last. -/
theorem after_fetches (lib : PyJwt K) (v : OIDCVerifier) (calls : List Verification) :
    v.after lib calls =
      v.withCache (((v.fetches lib calls).getLast?.map fun f => ⟨f.2, f.1⟩).getD v.cache) := by
  obtain ⟨hafter, hfetches⟩ := v.run_looks lib calls
  rw [hafter, hfetches, after_eq]

/-- After a document that is not empty nothing is fetched for the lifetime of the cache. -/
theorem fetches_spaced (lib : PyJwt K) (v : OIDCVerifier) (calls : List Verification) :
    (v.fetches lib calls).IsChain (Spaced Json.truthy (v.cacheTtl : ℚ)) := by
  rw [(v.run_looks lib calls).2]
  exact (isChain_fetches v.cache _).tail

/-- What an accepting call does: it was signed under the document held afterwards, which is no
older than it may be if nobody was asked. -/
theorem of_claims (hlib : lib.Documented) (h : (v.verify lib call).claims = some claims) :
    (v.verify lib call).verifier.jwksCache.truthy = true ∧
      claims.SignedUnder lib v.issuer v.audience call (v.verify lib call).verifier.jwksCache ∧
      ((v.verify lib call).request = .none →
        call.monotonic - (v.verify lib call).verifier.jwksLastFetch < v.cacheTtl) := by
  rw [verify] at h ⊢
  cases hheader : v.header? lib call.token with
  | none =>
    rw [hheader] at h
    cases h
  | some found =>
    rw [hheader] at h
    obtain ⟨document, hget, hcheck⟩ := Option.bind_eq_some_iff.mp h
    obtain ⟨hheld, hfresh⟩ := of_getJwks hget
    obtain ⟨htruthy, hsigned⟩ := signed_of_check hlib hheader hcheck
    subst hheld
    exact ⟨htruthy, hsigned, hfresh⟩

end OIDCVerifier

end Verify

/-! ## Runs -/

section Runs

variable {K : Type} (lib : PyJwt K) (issuer audience jwksUrl : String) (cacheTtl : ℤ)
  (calls : List Verification)

/-- **Who signed an accepted token.** In every run of calls on a new verifier, with any tokens, any
clock readings and any answers of the issuer, a call that returns claims has checked the token, with
an allowed algorithm, against the key of its `kid` in the document that was fetched last; and if
that call asked nobody, the document was fetched less than the lifetime of the cache ago. -/
theorem accepted_token_signed (hlib : lib.Documented) (call : Verification) (claims : TokenClaims)
    (h : (((OIDCVerifier.new issuer audience jwksUrl cacheTtl).after lib calls).verify lib
      call).claims = some claims) :
    ∃ fetched document,
      ((OIDCVerifier.new issuer audience jwksUrl cacheTtl).fetches lib
        (calls ++ [call])).getLast? = some (fetched, document) ∧
      claims.SignedUnder lib issuer audience call document ∧
      ((((OIDCVerifier.new issuer audience jwksUrl cacheTtl).after lib calls).verify lib
        call).request = .none → call.monotonic - fetched < cacheTtl) := by
  have hheld := (OIDCVerifier.new issuer audience jwksUrl cacheTtl).after_fetches lib calls
  have hlast := (OIDCVerifier.new issuer audience jwksUrl cacheTtl).after_fetches lib
    (calls ++ [call])
  rw [OIDCVerifier.after_concat] at hlast
  obtain ⟨htruthy, hsigned, hfresh⟩ := OIDCVerifier.of_claims hlib h
  rw [hlast] at htruthy hsigned hfresh
  cases hnewest : ((OIDCVerifier.new issuer audience jwksUrl cacheTtl).fetches lib
      (calls ++ [call])).getLast? with
  | none =>
    rw [hnewest] at htruthy
    cases htruthy
  | some f =>
    rw [hnewest, hheld] at hsigned
    rw [hnewest] at hfresh
    rw [hheld] at hfresh ⊢
    exact ⟨f.1, f.2, rfl, hsigned, hfresh⟩

/-- A library for one token, which the key `k1` has signed. -/
def PyJwt.oneToken : PyJwt Unit where
  getUnverifiedHeader token := if token = "t" then some ⟨some "k1", some (.str "RS256")⟩ else none
  getSigningKey _ := none
  pyJWK _ := some ()
  decode _ token key _ _ _ :=
    match key with
    | .client => none
    | .key _ => if token = "t" then some [("sub", .str "alice")] else none
  split _ := []

/-- A document with the key `k1`. -/
def oneKey : Json := .obj [("keys", .arr [.obj [("kid", .str "k1")]])]

/-- Two calls with the token; between them the issuer goes down. -/
theorem cached_token_signed : ∃ claims fetched document,
    ((OIDCVerifier.new "iss" "aud" "url" 300).fetches PyJwt.oneToken
      ([⟨"t", 0, 0, some oneKey⟩] ++ [⟨"t", 100, 0, none⟩])).getLast? = some (fetched, document) ∧
    TokenClaims.SignedUnder PyJwt.oneToken "iss" "aud" ⟨"t", 100, 0, none⟩ document claims := by
  have hclaims : (((OIDCVerifier.new "iss" "aud" "url" 300).after PyJwt.oneToken
      [⟨"t", 0, 0, some oneKey⟩]).verify PyJwt.oneToken ⟨"t", 100, 0, none⟩).claims.isSome := by
    decide +kernel
  obtain ⟨claims, hclaims⟩ := Option.isSome_iff_exists.mp hclaims
  obtain ⟨fetched, document, hlast, hsigned, -⟩ := accepted_token_signed PyJwt.oneToken "iss" "aud"
    "url" 300 [⟨"t", 0, 0, some oneKey⟩] ⟨fun _ => rfl, fun _ _ _ _ _ => rfl⟩ ⟨"t", 100, 0, none⟩
    claims hclaims
  exact ⟨claims, fetched, document, hlast, hsigned⟩

/-- **How often the issuer is asked**: in every run of calls on a new verifier, `n + 1` documents
that are fetched one after the other and are not empty take `n` lifetimes of the cache. -/
theorem fetches_take_time (before rest : List (ℚ × Json)) (first : ℚ × Json)
    (others : List (ℚ × Json))
    (hfetches : (OIDCVerifier.new issuer audience jwksUrl cacheTtl).fetches lib calls =
      before ++ first :: others ++ rest)
    (huseful : ∀ f ∈ first :: others, f.2.truthy = true) :
    others.length * (cacheTtl : ℚ) ≤
      ((first :: others).getLast (List.cons_ne_nil _ _)).1 - first.1 := by
  have hspaced := (OIDCVerifier.new issuer audience jwksUrl cacheTtl).fetches_spaced lib calls
  rw [hfetches] at hspaced
  rw [← nsmul_eq_mul]
  exact length_nsmul_le hspaced.left_of_append.right_of_append huseful

/-- The document is fetched again after the lifetime of the cache. -/
theorem keys_fetched_again : ∃ first last,
    (OIDCVerifier.new "iss" "aud" "url" 300).fetches PyJwt.oneToken
      [⟨"t", 0, 0, some oneKey⟩, ⟨"t", 100, 0, some oneKey⟩, ⟨"t", 400, 0, some oneKey⟩] =
        [first, last] ∧ (300 : ℚ) ≤ last.1 - first.1 := by
  have hshape : ((OIDCVerifier.new "iss" "aud" "url" 300).fetches PyJwt.oneToken
      [⟨"t", 0, 0, some oneKey⟩, ⟨"t", 100, 0, some oneKey⟩, ⟨"t", 400, 0, some oneKey⟩]).map
        (fun f => (f.1, f.2.truthy)) = [(0, true), (400, true)] := by decide +kernel
  obtain ⟨first, others, hfetches, hfirst, hothers⟩ := List.map_eq_cons_iff.mp hshape
  obtain ⟨last, rest, rfl, hlast, hrest⟩ := List.map_eq_cons_iff.mp hothers
  obtain rfl := List.map_eq_nil_iff.mp hrest
  have huseful : ∀ f ∈ [first, last], f.2.truthy = true := by
    simp [(Prod.mk.inj hfirst).2, (Prod.mk.inj hlast).2]
  refine ⟨first, last, hfetches, ?_⟩
  simpa using fetches_take_time PyJwt.oneToken "iss" "aud" "url" 300 _ [] [] first [last] hfetches
    huseful

end Runs

end BankingAgent
