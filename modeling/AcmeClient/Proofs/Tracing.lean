import AcmeClient.Proofs.Simulation

/-!
# Traces

Every access to an authority is written down, with what came of it: messages to the user, and
everything that is asked of the authority.

* `Authority.Access`: an access to an authority;
* `Authority.traced`: the authority that writes all accesses down, next to its state;
* `Authority.simulates_traced`: in all else it is the authority itself.
-/

namespace AcmeClient

namespace Authority

/-- An access to an authority, with what came of it. -/
inductive Access where
  | note (e : Log.Entry)
  | lookUp (name : String) (outcome : Except Error Value)
  | certificate (url : String) (outcome : Except Error (Value × Headers))
  /-- A document, with the time at which it arrived. -/
  | resource (url : String) (outcome : Except Error (Value × Headers)) (time : Int)
  | signed (url payload : Value) (key : Option PrivateKey)
      (outcome : Except Error (Value × Headers))

variable {σ α : Type}

/-- An action that is written down as an access. -/
def tracing (access : Except Error α → σ → Access) (x : Action σ α) :
    Action (List Access × σ) α := fun p =>
  ((x p.2).1, (p.1 ++ [access (x p.2).1 (x p.2).2], (x p.2).2))

/-- The authority that writes all accesses down. -/
def traced (A : Authority σ) : Authority (List Access × σ) where
  now p := A.now p.2
  note e p := (p.1 ++ [.note e], A.note e p.2)
  resourceUrl? name := tracing (fun r _ => .lookUp name r) (A.resourceUrl? name)
  requestCertificate url := tracing (fun r _ => .certificate url r) (A.requestCertificate url)
  requestResource url := tracing (fun r s => .resource url r (A.now s)) (A.requestResource url)
  sendSigned url payload key :=
    tracing (fun r _ => .signed url payload key r) (A.sendSigned url payload key)

theorem simulates_traced (A : Authority σ) : A.traced.Simulates Prod.snd A where
  now _ := rfl
  note _ _ := rfl
  resourceUrl? _ _ := rfl
  requestCertificate _ _ := rfl
  requestResource _ _ := rfl
  sendSigned _ _ _ _ := rfl

section Traced

variable {A : Authority σ} {s t : σ}

theorem say_traced (A : Authority σ) (e : Log.Entry) (l : List Access) (s : σ) :
    A.traced.say e (l, s) = (.ok (), (l ++ [.note e], A.note e s)) :=
  rfl

theorem resourceUrl?_traced {name : String} {r : Except Error Value}
    (h : A.resourceUrl? name s = (r, t)) (l : List Access) :
    A.traced.resourceUrl? name (l, s) = (r, (l ++ [.lookUp name r], t)) := by
  change tracing (fun r _ => .lookUp name r) (A.resourceUrl? name) (l, s) = _
  rw [tracing, h]

theorem sendSigned_traced {url payload : Value} {key : Option PrivateKey}
    {r : Except Error (Value × Headers)} (h : A.sendSigned url payload key s = (r, t))
    (l : List Access) :
    A.traced.sendSigned url payload key (l, s) =
      (r, (l ++ [.signed url payload key r], t)) := by
  change tracing (fun r _ => .signed url payload key r) (A.sendSigned url payload key) (l, s) = _
  rw [tracing, h]

end Traced

end Authority

end AcmeClient
