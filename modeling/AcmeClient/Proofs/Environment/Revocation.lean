import AcmeClient.Proofs.Environment.Footprint
import AcmeClient.Proofs.Environment.Obtaining

/-!
# Revocation without an account

The certificate in a file is revoked with its own key. The account side of two environments may
differ: the account key, the address of the account in the settings, and what the authority knows
about it.

* `Environment.revokeFile_of_ok`, `Environment.revokeFile_of_not_obtainable`: what is done with an
  authority and without one;
* `Environment.carries_revokeFile`, `Environment.revokeFile_alike`: who signs the requests, and what
  two revocations have in common;
* **`Environment.revoked_without_account`**: where the authority can be obtained, the account side
  makes no difference; where it cannot, the revocation fails and sends nothing;
* `Environment.unrevoked_without_account_key`: so it does where there is no account key.
-/

namespace AcmeClient

namespace Environment

variable {file keyFile settings settings' : Value} {c : Certificate} {v w : Environment}

/-- The certificate of a file is revoked with the key in another file, or it is not for lack of
it. -/
def revokeBy (file keyFile reason : Value) (c : Certificate) (n : Nat)
    (key : Except Error PrivateKey) : Action Environment Unit := do
  say (Log.info ("Revoking " ++ file.display ++ " with the certificate key from " ++ keyFile.display))
  let k ← Action.ofExcept key
  Revocation.revokeWithKey (authority n) (some k) (.certificate c) reason

theorem revokeFile_of_unread {e : Error} (reason : Value)
    (hc : certificateOf (v.files.readValue file) = .error e) :
    revokeFile file settings reason keyFile v = (.error e, v) :=
  Action.bind_of_error ((readCertificate_eq file v).trans (congrArg (·, v) hc))

section Read

variable (own : keyFile.isTrue = true) (reason : Value)
  (hc : certificateOf (v.files.readValue file) = .ok c)
include own hc

theorem revokeFile_eq : revokeFile file settings reason keyFile v =
    (authorityFor settings >>= fun n => say (Log.info ("Revoking " ++ file.display ++
      " with the certificate key from " ++ keyFile.display)) >>= fun _ => readKey keyFile >>=
        fun key => Revocation.revokeWithKey (authority n) (some key) (.certificate c) reason) v := by
  have certificate := (readCertificate_eq file v).trans (congrArg (·, v) hc)
  unfold revokeFile
  rw [Action.bind_of_ok certificate, own]
  rfl

theorem revokeFile_of_error {e : Error} (hn : authorityFor settings v = (.error e, w)) :
    revokeFile file settings reason keyFile v = (.error e, w) := by
  rw [revokeFile_eq own reason hc, Action.bind_of_error hn]

theorem revokeFile_of_ok {n : Nat} (hn : authorityFor settings v = (.ok n, w)) :
    revokeFile file settings reason keyFile v =
      revokeBy file keyFile reason c n (keyOf (w.files.readValue keyFile)) w := by
  rw [revokeFile_eq own reason hc, Action.bind_of_ok hn]
  exact Action.bind_congr (readKey_eq keyFile _)

/-- Without its authority a certificate is not revoked, and nothing is sent. -/
theorem revokeFile_of_not_obtainable (h : ¬ Obtainable v settings) :
    (∃ e, (authorityFor settings v).1 = .error e ∧
        (revokeFile file settings reason keyFile v).1 = .error e) ∧
      (revokeFile file settings reason keyFile v).2.surroundings.exchanges =
        v.surroundings.exchanges := by
  obtain ⟨e, u, failed, same⟩ := authorityFor_of_not_obtainable h
  rw [revokeFile_of_error own reason hc failed, failed]
  exact ⟨⟨e, rfl, rfl⟩, same⟩

end Read

variable {X : String → Prop} {P : Value → Prop}

theorem agrees_revokeBy (file keyFile reason : Value) (c : Certificate) (n : Nat)
    (key : Except Error PrivateKey) :
    Agrees X P (fun j => ∃ k, key = .ok k ∧ k.Signs j) (revokeBy file keyFile reason c n key)
      (revokeBy file keyFile reason c n key) :=
  (agrees_note _).bind fun _ => .ofExcept_bind fun k hk =>
    (agrees_revokeWithKey n k (.certificate c) reason).mono fun _ hj => ⟨k, hk, hj⟩

/-- Signed requests are signed by the key of the certificate. -/
theorem carries_revokeFile (file settings : Value) (own : keyFile.isTrue = true) (reason : Value)
    (v : Environment) :
    Carries (fun j => ∃ k, keyOf (v.files.readValue keyFile) = .ok k ∧ k.Signs j)
      v.surroundings.exchanges
      (revokeFile file settings reason keyFile v).2.surroundings.exchanges := by
  cases hc : certificateOf (v.files.readValue file) with
  | error e =>
    rw [revokeFile_of_unread reason hc]
    exact .refl _
  | ok c =>
    by_cases hv : Obtainable v settings
    · obtain ⟨n, u, hn, same, files⟩ := authorityFor_of_obtainable hv
      rw [revokeFile_of_ok own reason hc hn, files, ← same]
      exact (agrees_revokeBy (X := fun _ => False) (P := fun _ => False) ..).carries u
    · rw [(revokeFile_of_not_obtainable own reason hc hv).2]
      exact .refl _

section Alike

variable (alike : v.Alike X P w) (agree : AgreeBut "account_url" settings settings')
  (registered : ∀ a b, settingsText settings = .ok a → settingsText settings' = .ok b →
    v.registry.lookup a = w.registry.lookup b)
include alike agree registered

/-- With their authorities, certificates are revoked alike. -/
theorem revokeFile_alike (hfile : P file) (hkey : P keyFile) (own : keyFile.isTrue = true)
    (reason : Value)
    (obtainable : ∀ c, certificateOf (v.files.readValue file) = .ok c →
      Obtainable v settings ∧ Obtainable w settings')
    (spares : Spares X v.surroundings.exchanges
      (revokeFile file settings reason keyFile v).2.surroundings.exchanges) :
    (revokeFile file settings reason keyFile v).1 = (revokeFile file settings' reason keyFile w).1 ∧
      (revokeFile file settings reason keyFile v).2.Alike X P
        (revokeFile file settings' reason keyFile w).2 := by
  cases hc : certificateOf (v.files.readValue file) with
  | error e =>
    rw [revokeFile_of_unread reason hc, revokeFile_of_unread reason (alike.files file hfile ▸ hc)]
    exact ⟨rfl, alike⟩
  | ok c =>
    have hc' : certificateOf (w.files.readValue file) = .ok c := alike.files file hfile ▸ hc
    obtain ⟨hv, hw⟩ := obtainable c hc
    obtain ⟨n, u, hn, same, files⟩ := authorityFor_of_obtainable hv
    obtain ⟨number, alike'⟩ := authorityFor_alike alike agree registered hv hw
    rcases hn' : authorityFor settings' w with ⟨r, u'⟩
    rw [hn, hn'] at number alike'
    obtain rfl : .ok n = r := number
    rw [revokeFile_of_ok own reason hc hn, ← same] at spares
    rw [revokeFile_of_ok own reason hc hn, revokeFile_of_ok own reason hc' hn',
      ← alike'.files keyFile hkey]
    exact (agrees_revokeBy file keyFile reason c n _).same u u' alike' spares

/-- **The account side makes no difference to a revocation with the key of the certificate, as long
as the authority can be obtained.** Two environments have the same files of certificate and key, and
their settings differ in the address of the account at most; account keys, accounts, and the replies
of the addresses in `X` may differ, as these are not the addresses of directories, nonces and
revocations. Then results, requests and messages are the same. Nothing else is asked, and signed
requests are signed by the key of the certificate. Where the authority cannot be obtained, the
revocation fails for this reason and sends nothing. -/
theorem revoked_without_account (hfile : P file) (hkey : P keyFile) (own : keyFile.isTrue = true)
    (reason : Value) :
    let p := revokeFile file settings reason keyFile v
    let q := revokeFile file settings' reason keyFile w
    ((∀ c, (readCertificate file v).1 = .ok c → Obtainable v settings ∧ Obtainable w settings') →
      (∀ a ∈ p.2.addresses, ¬ X a) → p.1 = q.1 ∧ p.2.Alike X P q.2) ∧
    Consults v p.2 ∧
    Carries (fun j => ∃ k, (readKey keyFile v).1 = .ok k ∧ k.Signs j) v.surroundings.exchanges
      p.2.surroundings.exchanges ∧
    ∀ c, (readCertificate file v).1 = .ok c → ¬ Obtainable v settings →
      (∃ e, (authorityFor settings v).1 = .error e ∧ p.1 = .error e) ∧
        p.2.surroundings.exchanges = v.surroundings.exchanges := by
  rw [readCertificate_eq, readKey_eq]
  intro p q
  have consults : Consults v p.2 := consults_revokeFile file settings reason own v
  refine ⟨fun obtainable apart => ?_, consults, carries_revokeFile file settings own reason v,
    fun c hc => revokeFile_of_not_obtainable own reason hc⟩
  obtain ⟨new, hn, asked⟩ := consults.asked
  have spares : Spares X v.surroundings.exchanges p.2.surroundings.exchanges := by
    rw [hn, spares_append]
    exact fun e he => apart _ (asked e he)
  exact revokeFile_alike alike agree registered hfile hkey own reason obtainable spares

end Alike

/-! ## An account that is lost -/

/-- The octets of a key. -/
def keyOctets (x : UInt8) : Octets :=
  [0x30, 0x2e, 0x02, 0x01, 0x00, 0x30, 0x05, 0x06, 0x03, 0x2b, 0x65, 0x70, 0x04, 0x22, 0x04, 0x20] ++
    List.replicate 32 x

/-- The key in these octets. -/
def keyWith (x : UInt8) : PrivateKey :=
  .edwards .ed25519 (List.replicate 32 x)

/-- A directory with the addresses for nonces, accounts and revocations. -/
def directoryText : String :=
  "\x7b\"newNonce\": \"https://ca/n\", \"newAccount\": \"https://ca/a\", " ++
    "\"revokeCert\": \"https://ca/r\"\x7d"

/-- A certificate with its key, an account key if there is one, and replies to account requests. -/
def site (account : Option UInt8) (replies : List Reply) : Environment where
  surroundings := .start 0 [
    ("https://ca/a", replies),
    ("https://ca/directory", [.response 200 (.table []) (Octets.ofString directoryText) false]),
    ("https://ca/n", [.response 200 (.table [("Replay-Nonce", .text "n1")]) [] false]),
    ("https://ca/r", [.response 200 (.table []) [] false])]
  files := ⟨[], [(["cert.pem".toList], Files.pem "CERTIFICATE" Certificate.smallest),
    (["cert.key".toList], Files.pem "PRIVATE KEY" (keyOctets 3))] ++
      account.toList.map fun x => (["account.key".toList], Files.pem "PRIVATE KEY" (keyOctets x))⟩
  instances := []
  registry := []

/-- Settings, with further members. -/
def siteSettings (ms : Members) : Value :=
  .object ([("api", .text "v2"), ("authority", .text "https://ca"),
    ("account_key", .text "account.key")] ++ ms)

section Site

variable (account account' : Option UInt8) (replies replies' : List Reply)

theorem node_certificate : (site account replies).files.node "cert.pem".toList =
    .ok (.file (Files.pem "CERTIFICATE" Certificate.smallest)) := by
  cases account <;> rfl

theorem node_key : (site account replies).files.node "cert.key".toList =
    .ok (.file (Files.pem "PRIVATE KEY" (keyOctets 3))) := by
  cases account <;> rfl

theorem site_alike : (site account replies).Alike (· = "https://ca/a")
    (fun p => p = .text "cert.pem" ∨ p = .text "cert.key") (site account' replies') where
  surroundings := ⟨rfl, rfl, rfl, fun u hu => by
    change List.lookup u (("https://ca/a", replies) :: _) =
      List.lookup u (("https://ca/a", replies') :: _)
    simp only [List.lookup_cons, beq_false_of_ne hu]⟩
  files p hp := by
    rcases hp with rfl | rfl
    · exact Files.readValue_congr ((node_certificate ..).trans (node_certificate ..).symm)
    · exact Files.readValue_congr ((node_key ..).trans (node_key ..).symm)
  count := rfl
  instances n i j hi _ := by cases hi

theorem certificateOf_site : certificateOf ((site account replies).files.readValue (.text "cert.pem")) =
    .ok ⟨7, .ok Certificate.smallest⟩ :=
  certificateOf_pem (node_certificate ..) Certificate.ofDer_smallest

theorem readGeneral_keyOctets (x : UInt8) :
    PrivateKey.readGeneral (keyOctets x) = .ok (keyWith x) := by
  rfl

theorem keyOf_site : keyOf ((site account replies).files.readValue (.text "cert.key")) =
    .ok (keyWith 3) :=
  keyOf_pem (node_key ..) (readGeneral_keyOctets 3)

theorem keyOf_account (x : UInt8) :
    keyOf ((site (some x) replies).files.readValue (.text "account.key")) = .ok (keyWith x) :=
  keyOf_pem rfl (readGeneral_keyOctets x)

/-- The client of these settings. -/
def siteClient (x : UInt8) (account : Value) : Instance :=
  .client ⟨.text "https://ca", keyWith x,
    .edwards .ed25519 (EdDsa.publicKey .ed25519 (List.replicate 32 x))⟩ (.start account)

theorem makes_site (x : UInt8) (ms : Members) : Makes (site (some x) replies) (siteSettings ms)
    (.text "account.key") (siteClient x (Members.get ms "account_url")) :=
  .intro rfl (keyOf_account replies x) rfl

theorem text_siteSettings : settingsText (siteSettings []) = .ok
    "\x7b\"account_key\": \"account.key\", \"api\": \"v2\", \"authority\": \"https://ca\"\x7d" := by
  have written : Json.writeSorted? (siteSettings []) = some
      "\x7b\"account_key\": \"account.key\", \"api\": \"v2\", \"authority\": \"https://ca\"\x7d" := by
    decide +kernel
  rw [settingsText, written]

theorem obtainable_site (x : UInt8) (ms : Members)
    (written : (settingsText (siteSettings ms)).isOk = true) :
    Obtainable (site (some x) replies) (siteSettings ms) := by
  obtain ⟨text, ht⟩ := isOk_iff.mp written
  exact .made ht (makes_site replies x ms)

end Site

/-- The authority knows the account. -/
def knownSite : Environment :=
  site (some 1) [.response 200 (.table [("Location", .text "https://ca/a/1")]) [] false]

/-- The authority does not know this account. -/
def unknownSite : Environment :=
  site (some 2) [.response 400 (.table []) [] false]

/-- There is no account key. -/
def keylessSite : Environment :=
  site none [.response 400 (.table []) [] false]

/-- The certificate is revoked, and accounts have an address of their own. -/
theorem revokeFile_knownSite :
    (revokeFile (.text "cert.pem") (siteSettings []) (.int 4) (.text "cert.key") knownSite).1.isOk =
        true ∧
      ∀ a ∈ (revokeFile (.text "cert.pem") (siteSettings []) (.int 4) (.text "cert.key")
          knownSite).2.addresses, a ≠ "https://ca/a" := by
  have certificate : certificateOf (knownSite.files.readValue (.text "cert.pem")) = _ :=
    certificateOf_site ..
  have made : authorityFor (siteSettings []) knownSite = (.ok 0, _) :=
    authorityFor_of_makes text_siteSettings rfl (makes_site _ 1 [])
  have key : keyOf (knownSite.files.readValue (.text "cert.key")) = _ := keyOf_site ..
  rw [revokeFile_of_ok rfl (.int 4) certificate made]
  dsimp only [note]
  rw [key]
  decide +kernel

/-- An account that the authority knows, and one that is in the settings. -/
theorem revoked_without_account_known :
    (revokeFile (.text "cert.pem") (siteSettings []) (.int 4) (.text "cert.key") knownSite).1 =
        .ok () ∧
      (revokeFile (.text "cert.pem") (siteSettings [("account_url", .text "https://ca/a/2")])
        (.int 4) (.text "cert.key") unknownSite).1 = .ok () ∧
      (revokeFile (.text "cert.pem") (siteSettings []) (.int 4) (.text "cert.key")
          knownSite).2.surroundings.exchanges =
        (revokeFile (.text "cert.pem") (siteSettings [("account_url", .text "https://ca/a/2")])
          (.int 4) (.text "cert.key") unknownSite).2.surroundings.exchanges := by
  obtain ⟨done, apart⟩ := revokeFile_knownSite
  obtain ⟨⟨⟩, hp⟩ := isOk_iff.mp done
  have agree : AgreeBut "account_url" (siteSettings [])
      (siteSettings [("account_url", .text "https://ca/a/2")]) :=
    .object fun l hl => by simp [Members.find?, Ne.symm hl]
  have alike : knownSite.Alike (· = "https://ca/a") _ unknownSite := site_alike ..
  obtain ⟨same, state⟩ := (revoked_without_account alike agree (fun _ _ _ _ => rfl) (.inl rfl)
    (.inr rfl) rfl (.int 4)).1 (fun _ _ => ⟨obtainable_site _ 1 _ (by decide +kernel),
      obtainable_site _ 2 _ (by decide +kernel)⟩) apart
  exact ⟨hp, same.symm.trans hp, state.surroundings.exchanges⟩

/-- Without the account key the certificate is not revoked, although nothing else differs. -/
theorem unrevoked_without_account_key :
    knownSite.Alike (· = "https://ca/a") (fun p => p = .text "cert.pem" ∨ p = .text "cert.key")
        keylessSite ∧
      (revokeFile (.text "cert.pem") (siteSettings []) (.int 4) (.text "cert.key") knownSite).1 =
        .ok () ∧
      (revokeFile (.text "cert.pem") (siteSettings []) (.int 4) (.text "cert.key") keylessSite).1 =
        .error Files.missing := by
  have certificate : certificateOf (keylessSite.files.readValue (.text "cert.pem")) = _ :=
    certificateOf_site ..
  have failed : authorityFor (siteSettings []) keylessSite =
      (.error Files.missing, note (reading (.text "account.key")) keylessSite) := by
    rw [authorityFor_eq text_siteSettings]
    rfl
  refine ⟨site_alike .., ?_, ?_⟩
  · obtain ⟨⟨⟩, done⟩ := isOk_iff.mp revokeFile_knownSite.1
    exact done
  · rw [revokeFile_of_error rfl (.int 4) certificate failed]

end Environment

end AcmeClient
