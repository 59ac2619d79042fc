import AcmeClient.Proofs.RenewalInfo.Replacing
import AcmeClient.Proofs.Unwrapped

/-!
# Faults of accesses

An access to an authority can fail, or bring something that cannot be used.

* `Authority.Access.fault?`, `Authority.Access.Gives`: why an access was of no use, and what comes
  of it;
* `Authority.Unwrapped`: the authority does not fail to load resources itself;
* **`CertificateResource.download_traced`**, **`RenewalInfo.fetch_traced`**: a download and a fetch
  are one access, and end as it does.
-/

namespace AcmeClient

open Authority (Access)

variable {σ α : Type}

theorem CertificateResource.unwrapped_ofResponse (location : String) (p : Value × Headers) :
    Unwrapped (Download.ofResponse location p) :=
  (Link.unwrapped_targets _ _ _).bind fun _ => (Chain.unwrapped_parseBody _).bind fun _ =>
    unwrapped_ok _

namespace RenewalInfo

theorem Record.unwrapped_ofResponse (location : String) (time : Int) (p : Value × Headers) :
    Unwrapped (ofResponse location time p) := by
  unfold ofResponse
  split
  · exact unwrapped_read _ _ _ _
  · exact unwrapped_plain _ _

end RenewalInfo

/-! ## Accesses -/

namespace Authority

/-- The error of an outcome. -/
def errorOf : Except Error α → Option Error
  | .ok _ => none
  | .error e => some e

/-- Why an access was of no use: it failed, or what it brought could not be used. -/
def Access.fault? : Access → Option Error
  | note _ => none
  | lookUp _ outcome => errorOf outcome
  | certificate url outcome =>
    errorOf (outcome.bind (CertificateResource.Download.ofResponse url))
  | resource url outcome time => errorOf (outcome.bind (RenewalInfo.Record.ofResponse url time))
  | signed _ _ _ outcome => errorOf outcome

/-- What comes of an access is this outcome. -/
def Access.Gives (a : Access) (r : Except Error α) : Prop :=
  a.fault? = errorOf r ∧ AcmeClient.Unwrapped r

/-- The authority does not fail to load resources itself: its errors are others. -/
structure Unwrapped (A : Authority σ) : Prop where
  resourceUrl? : ∀ name s, AcmeClient.Unwrapped (A.resourceUrl? name s).1
  requestCertificate : ∀ url s, AcmeClient.Unwrapped (A.requestCertificate url s).1
  requestResource : ∀ url s, AcmeClient.Unwrapped (A.requestResource url s).1
  sendSigned : ∀ url payload key s, AcmeClient.Unwrapped (A.sendSigned url payload key s).1

end Authority

variable {A : Authority σ} (unwrapped : A.Unwrapped) (l : List Access) (s : σ)

/-- A certificate with what a download brought. -/
def CertificateResource.keep (c : CertificateResource) :
    Except Error CertificateResource.Download → CertificateResource
  | .ok d => { c with download? := some d }
  | .error _ => c

include unwrapped

/-- **A download is one access, and ends as it does.** -/
theorem CertificateResource.download_traced {c : CertificateResource} (h : c.download? = none) :
    ∃ outcome r t, (Access.certificate c.location outcome).Gives r ∧
      (∀ d, r = .ok d → d.chain ≠ []) ∧
      download A.traced (c, (l, s)) = (r, (c.keep r, (l ++ [.note (announcement c.location)] ++
        [.certificate c.location outcome], t))) := by
  rcases hp : A.requestCertificate c.location (A.note (announcement c.location) s)
    with ⟨outcome, t⟩
  have clear : Unwrapped outcome := by
    have := unwrapped.requestCertificate c.location (A.note (announcement c.location) s)
    rwa [hp] at this
  have fetched : fetch A.traced c.location (l, s) = (outcome.bind (Download.ofResponse c.location),
      (l ++ [.note (announcement c.location)] ++ [.certificate c.location outcome], t)) := by
    rw [fetch_eq]
    change ((A.requestCertificate c.location (A.note (announcement c.location) s)).1.bind _,
      (l ++ [.note (announcement c.location)] ++ [.certificate c.location (A.requestCertificate
        c.location (A.note (announcement c.location) s)).1], (A.requestCertificate c.location
        (A.note (announcement c.location) s)).2)) = _
    rw [hp]
  refine ⟨outcome, outcome.bind (Download.ofResponse c.location), t, ⟨rfl, ?_⟩, ?_, ?_⟩
  · exact clear.bind fun p => unwrapped_ofResponse c.location p
  · intro d hd
    obtain ⟨p, -, hp⟩ := Action.except_bind_eq_ok_iff.mp hd
    exact Download.chain_ne_nil hp
  · rw [download_eq A.traced (l, s) h, fetched]
    cases outcome.bind (Download.ofResponse c.location) <;> rfl

namespace RenewalInfo

/-- **A fetch is one access, and ends as it does.** -/
theorem fetch_traced (location : String) :
    ∃ outcome time r t, (Access.resource location outcome time).Gives r ∧
      fetch A.traced location (l, s) = (r, (l ++ [.resource location outcome time], t)) := by
  have clear := unwrapped.requestResource location s
  refine ⟨_, _, _, _, ⟨rfl, ?_⟩, fetch_eq A.traced location (l, s)⟩
  exact clear.bind fun p => Record.unwrapped_ofResponse location _ p

end RenewalInfo

end AcmeClient
