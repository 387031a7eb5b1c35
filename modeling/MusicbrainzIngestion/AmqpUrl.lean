import MusicbrainzIngestion.Base.PercentCode
import MusicbrainzIngestion.Config

/-! The connection URL says which credentials and which address were configured: whatever
characters the secrets have, none of them passes for a delimiter, so no two configurations
share a URL. -/

namespace MusicbrainzIngestion
open Base

/-- What `urlencoding::encode` promises: no two texts are encoded alike, and an encoded text is made
of letters, digits and the marks that no URL is split at. -/
structure Encodes (encode : String → String) : Prop where
  injective : Function.Injective encode
  plain : ∀ s, ∀ c ∈ (encode s).toList, PercentCode.Plain c

theorem Encodes.not_mem {encode : String → String} (h : Encodes encode) {c : Char}
    (hplain : ¬ PercentCode.Plain c) (s : String) : c ∉ (encode s).toList :=
  fun hc => hplain (h.plain s c hc)

/-- Texts that are equal split alike at the first of a character. -/
theorem split_first {c : Char} {front front' rest rest' : List Char} (h : c ∉ front)
    (h' : c ∉ front') (heq : front ++ c :: rest = front' ++ c :: rest') :
    front = front' ∧ rest = rest' := by
  induction front generalizing front' with
  | nil =>
    cases front' with
    | nil => exact ⟨rfl, (List.cons.inj heq).2⟩
    | cons d front' => exact absurd (List.cons.inj heq).1 fun hd => h' (hd ▸ List.mem_cons_self)
  | cons d front ih =>
    cases front' with
    | nil => exact absurd (List.cons.inj heq).1 fun hd => h (hd ▸ List.mem_cons_self)
    | cons d' front' =>
      obtain ⟨hd, htail⟩ := List.cons.inj heq
      obtain ⟨hfront, hrest⟩ := ih (fun hc => h (List.mem_cons_of_mem _ hc))
        (fun hc => h' (List.mem_cons_of_mem _ hc)) htail
      exact ⟨by rw [hd, hfront], hrest⟩

/-- And at the last. -/
theorem split_last {c : Char} {front front' rest rest' : List Char} (h : c ∉ rest)
    (h' : c ∉ rest') (heq : front ++ c :: rest = front' ++ c :: rest') :
    front = front' ∧ rest = rest' := by
  have hreverse := congrArg List.reverse heq
  simp only [List.reverse_append, List.reverse_cons, List.append_assoc, List.singleton_append]
    at hreverse
  obtain ⟨hrest, hfront⟩ := split_first (by simpa using h) (by simpa using h') hreverse
  exact ⟨List.reverse_injective hfront, List.reverse_injective hrest⟩

theorem toList_buildAmqpUrl (encode : String → String) (user password host port : String) :
    (buildAmqpUrl encode user password host port).toList = "amqp://".toList ++
      ((encode user).toList ++ ':' :: ((encode password).toList ++ '@' ::
        ((host.toList ++ ':' :: port.toList) ++ "/%2F".toList))) := by
  simp [buildAmqpUrl]

theorem buildAmqpUrl_injective {encode : String → String} (hencode : Encodes encode)
    {user user' password password' host host' port port' : String} (hport : ':' ∉ port.toList)
    (hport' : ':' ∉ port'.toList)
    (h : buildAmqpUrl encode user password host port =
      buildAmqpUrl encode user' password' host' port') :
    user = user' ∧ password = password' ∧ host = host' ∧ port = port' := by
  have hlist := congrArg String.toList h
  rw [toList_buildAmqpUrl, toList_buildAmqpUrl] at hlist
  obtain ⟨huser, hrest⟩ := split_first (hencode.not_mem (by decide) user)
    (hencode.not_mem (by decide) user') (List.append_cancel_left hlist)
  obtain ⟨hpassword, haddress⟩ := split_first (hencode.not_mem (by decide) password)
    (hencode.not_mem (by decide) password') hrest
  obtain ⟨hhost, hportEq⟩ := split_last hport hport' (List.append_cancel_right haddress)
  exact ⟨hencode.injective (String.toList_injective huser),
    hencode.injective (String.toList_injective hpassword), String.toList_injective hhost,
    String.toList_injective hportEq⟩

theorem fromEnv_amqpConnection {p : Platform} {encode : String → String} {env : Environment}
    {c : ExtractorConfig p} (h : ExtractorConfig.fromEnv p encode env = .ok c) :
    ∃ user password, env.readSecret "RABBITMQ_USERNAME" "groovemap" = .ok user ∧
      env.readSecret "RABBITMQ_PASSWORD" "groovemap" = .ok password ∧
      c.amqpConnection = buildAmqpUrl encode user password
        ((env.var "RABBITMQ_HOST").getD "rabbitmq") ((env.var "RABBITMQ_PORT").getD "5672") := by
  unfold ExtractorConfig.fromEnv at h
  cases huser : env.readSecret "RABBITMQ_USERNAME" "groovemap" with
  | error e =>
    rw [huser] at h
    cases h
  | ok user =>
    cases hpassword : env.readSecret "RABBITMQ_PASSWORD" "groovemap" with
    | error e =>
      rw [huser, hpassword] at h
      cases h
    | ok password =>
      rw [huser, hpassword] at h
      cases h
      exact ⟨user, password, rfl, rfl, rfl⟩

/-- Two environments that give the same connection URL have the same user name, password, host and
port, wherever the secrets come from and whatever characters they have. -/
theorem amqp_url_determines (p : Platform) (encode : String → String) (hencode : Encodes encode)
    (env env' : Environment) (c c' : ExtractorConfig p)
    (h : ExtractorConfig.fromEnv p encode env = .ok c)
    (h' : ExtractorConfig.fromEnv p encode env' = .ok c')
    (hport : ':' ∉ ((env.var "RABBITMQ_PORT").getD "5672").toList)
    (hport' : ':' ∉ ((env'.var "RABBITMQ_PORT").getD "5672").toList)
    (hurl : c.amqpConnection = c'.amqpConnection) :
    env.readSecret "RABBITMQ_USERNAME" "groovemap" =
        env'.readSecret "RABBITMQ_USERNAME" "groovemap" ∧
      env.readSecret "RABBITMQ_PASSWORD" "groovemap" =
        env'.readSecret "RABBITMQ_PASSWORD" "groovemap" ∧
      (env.var "RABBITMQ_HOST").getD "rabbitmq" = (env'.var "RABBITMQ_HOST").getD "rabbitmq" ∧
      (env.var "RABBITMQ_PORT").getD "5672" = (env'.var "RABBITMQ_PORT").getD "5672" := by
  obtain ⟨user, password, huser, hpassword, hc⟩ := fromEnv_amqpConnection h
  obtain ⟨user', password', huser', hpassword', hc'⟩ := fromEnv_amqpConnection h'
  rw [hc, hc'] at hurl
  obtain ⟨rfl, rfl, hhost, hportEq⟩ := buildAmqpUrl_injective hencode hport hport' hurl
  exact ⟨huser.trans huser'.symm, hpassword.trans hpassword'.symm, hhost, hportEq⟩

def percentEncode (s : String) : String :=
  String.ofList (PercentCode.encode s.toByteArray.data.toList)

theorem encodes_percentEncode : Encodes percentEncode where
  injective s t h := by
    have hbytes := congrArg (fun u : String => PercentCode.decode u.toList) h
    simp only [percentEncode, String.toList_ofList, PercentCode.decode_encode] at hbytes
    exact String.toByteArray_inj.mp (ByteArray.ext (Array.toList_inj.mp hbytes))
  plain s := by
    rw [percentEncode, String.toList_ofList]
    exact PercentCode.plain_encode _

/-- The password has every delimiter of a URL in it. -/
def delimitersInPassword : Environment where
  var name := if name = "RABBITMQ_PASSWORD_FILE" then some "/run/secrets/password" else none
  readToString _ := .ok "p@ss:w/rd?#%2F\n"

/-- The same password, given without a file. -/
def delimitersInVariable : Environment where
  var name := if name = "RABBITMQ_PASSWORD" then some "p@ss:w/rd?#%2F" else none
  readToString _ := .error "no such file"

theorem amqp_url_determines_delimiters :
    delimitersInPassword.readSecret "RABBITMQ_PASSWORD" "groovemap" =
      delimitersInVariable.readSecret "RABBITMQ_PASSWORD" "groovemap" :=
  (amqp_url_determines smallServer percentEncode encodes_percentEncode delimitersInPassword
    delimitersInVariable _ _ rfl rfl (by decide) (by decide) (by decide +kernel)).2.1

end MusicbrainzIngestion
