import AcmeClient.Authority.Scripted
import AcmeClient.Client

/-!
# Authorities in use

The authorities that a program can have at the same time: clients with what they have learned, the
general authority, and authorities that answer from tables.

* `Instance`: an authority in use;
* `Instance.act`: do something with it that can be done with any authority;
* `Instance.ofSettings`: the authority that settings describe.
-/

namespace AcmeClient

/-- An authority in use, with its memory. -/
inductive Instance where
  | client (c : Client) (m : Client.Memory)
  /-- An authority that nothing can be asked of. -/
  | general
  /-- An authority that answers from tables. -/
  | scripted (t : Scripted)
deriving Inhabited

/-- Something that can be done with any authority. -/
abbrev Instance.Use (α : Type) := (σ : Type) → Authority σ → Action σ α

namespace Instance

variable {α : Type}

/-- Do something with an authority in use. -/
def act (f : Use α) (s : Surroundings) : Instance → Except Error α × Instance × Surroundings
  | client c m =>
    let (r, t) := f Client.State c.authority { toMemory := m, surroundings := s }
    (r, client c t.toMemory, t.surroundings)
  | general =>
    let (r, t) := f Surroundings (Authority.general (·.clock) Surroundings.note) s
    (r, general, t)
  | scripted tables =>
    let (r, t) := f (Scripted × Surroundings) Scripted.authority (tables, s)
    (r, scripted t.1, t.2)

/-- The error for a version of the interface that does not exist. -/
def unknownApi : Error :=
  .plain .noInterface "unknown interface"

/-- The authority of settings for an account key. -/
def ofSettings (settings : Members) (key : PrivateKey) : Except Error Instance := do
  let api ← match Members.find? settings "api" with
    | some v => .ok v
    | none => .error (.plain .missingName "api")
  if api.display = "v2" then
    let (c, account) ← Client.ofConfig settings (some key)
    .ok (client c (Client.Memory.start account))
  else if api.display = "acme" then .ok general
  else .error unknownApi

end Instance

end AcmeClient
