import DuckIceberg.Lib.FormEncoding
import DuckIceberg.Catalog.Attach
import Mathlib.Data.Set.Function

/-!
# The body of a token request

`IRCAPI::GetToken` writes the id, the secret and the scope into a form body as they are, and
`APIUtils::PostRequest` posts it as `application/x-www-form-urlencoded`, up to its first null byte
(`CURLOPT_POSTFIELDS` takes a C string).  The body is decoded as the four fields exactly when nothing
in the three strings has a meaning in a form (`faithful_iff`).
-/

namespace DuckIceberg.IRCAPI

open FormEncoding

/-- The parameters of `GetToken`, over bytes -/
def tokenParameters (id secret scope : List UInt8) : List (List UInt8 × List UInt8) :=
  [(bytes "grant_type", bytes "client_credentials"), (bytes "client_id", id),
    (bytes "client_secret", secret), (bytes "scope", scope)]

/-- The `post_data` of `GetToken`, over bytes -/
def tokenPostData (id secret scope : List UInt8) : List UInt8 :=
  join (tokenParameters id secret scope)

/-- What `PostRequest` posts of it. -/
def tokenBody (id secret scope : List UInt8) : List UInt8 := posted (tokenPostData id secret scope)

/-- The text that `GetToken` posts has these bytes. -/
theorem bytes_postData (id secret scope : String) :
    bytes ("grant_type=client_credentials&client_id=" ++ id ++ "&client_secret=" ++ secret ++
      "&scope=" ++ scope) = tokenPostData (bytes id) (bytes secret) (bytes scope) := by
  have hgrant : bytes "grant_type=client_credentials&client_id=" =
      bytes "grant_type" ++ 61 :: bytes "client_credentials" ++ 38 :: bytes "client_id" ++ [61] := by
    decide +kernel
  have hsecret : bytes "&client_secret=" = 38 :: bytes "client_secret" ++ [61] := by decide +kernel
  have hscope : bytes "&scope=" = 38 :: bytes "scope" ++ [61] := by decide +kernel
  simp [tokenPostData, tokenParameters, join, hgrant, hsecret, hscope]

/-- The request is decoded as the four fields it is made of. -/
def Faithful (id secret scope : List UInt8) : Prop :=
  fields (tokenBody id secret scope) = tokenParameters id secret scope

instance (id secret scope : List UInt8) : Decidable (Faithful id secret scope) :=
  inferInstanceAs (Decidable (_ = _))

theorem tokenParameters_inj {id id' secret secret' scope scope' : List UInt8}
    (h : tokenParameters id secret scope = tokenParameters id' secret' scope') :
    id = id' ∧ secret = secret' ∧ scope = scope' := by
  simpa [tokenParameters] using h

theorem literal_of_forall {v : List UInt8} (h : ∀ c ∈ v, c ≠ 43 ∧ c ≠ 37) : Literal v := by
  refine ⟨fun hplus => (h 43 hplus).1 rfl, fun a b _ _ hin => ?_⟩
  exact (h 37 (hin.subset List.mem_cons_self)).2 rfl

theorem name_of_forall {k : List UInt8}
    (h : ∀ c ∈ k, c ≠ 43 ∧ c ≠ 37 ∧ c ≠ 61 ∧ c ≠ 38 ∧ c ≠ 0) : Name k where
  literal := literal_of_forall fun c hc => ⟨(h c hc).1, (h c hc).2.1⟩
  separator hmem := (h 61 hmem).2.2.1 rfl
  delimiter hmem := (h 38 hmem).2.2.2.1 rfl
  terminator hmem := (h 0 hmem).2.2.2.2 rfl

/-- The parameters have names that stand for themselves. -/
theorem tokenParameters_name {id secret scope : List UInt8} :
    ∀ kv ∈ tokenParameters id secret scope, Name kv.1 := by
  intro kv hkv
  simp only [tokenParameters, List.mem_cons, List.not_mem_nil, or_false] at hkv
  rcases hkv with rfl | rfl | rfl | rfl <;> dsimp only <;> exact name_of_forall (by decide +kernel)

theorem plain_grantType : Plain (bytes "client_credentials") where
  literal := literal_of_forall (by decide +kernel)
  delimiter := by decide +kernel
  terminator := by decide +kernel

theorem faithful_iff_plain (id secret scope : List UInt8) :
    Faithful id secret scope ↔ Plain id ∧ Plain secret ∧ Plain scope := by
  rw [Faithful, tokenBody, tokenPostData, fields_posted_join tokenParameters_name]
  simp [tokenParameters, plain_grantType]

/-- **The body of a token request is decoded as its four fields** exactly when the id, the secret and
the scope are plain, and different credentials of this kind have different bodies. -/
theorem faithful_iff (id secret scope : List UInt8) :
    (Faithful id secret scope ↔ Plain id ∧ Plain secret ∧ Plain scope) ∧
      Set.InjOn (fun c : List UInt8 × List UInt8 × List UInt8 => tokenBody c.1 c.2.1 c.2.2)
        {c | Plain c.1 ∧ Plain c.2.1 ∧ Plain c.2.2} := by
  refine ⟨faithful_iff_plain id secret scope, ?_⟩
  rintro ⟨id, secret, scope⟩ h ⟨id', secret', scope'⟩ h' hbody
  have hdecoded : Faithful id secret scope := (faithful_iff_plain id secret scope).2 h
  have hdecoded' : Faithful id' secret' scope' := (faithful_iff_plain id' secret' scope').2 h'
  dsimp only at hbody
  rw [Faithful, hbody, hdecoded'] at hdecoded
  obtain ⟨rfl, rfl, rfl⟩ := tokenParameters_inj hdecoded
  rfl

/-- A client with an `&` in its id is taken for another with an `&` in its secret. -/
theorem not_faithful_ampersand :
    tokenBody (bytes "a&client_secret=b") (bytes "c") (bytes "s") =
        tokenBody (bytes "a") (bytes "b&client_secret=c") (bytes "s") ∧
      ¬ Faithful (bytes "a&client_secret=b") (bytes "c") (bytes "s") := by
  decide +kernel

end DuckIceberg.IRCAPI
