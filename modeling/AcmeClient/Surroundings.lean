import AcmeClient.Action
import AcmeClient.Log
import AcmeClient.Network
import AcmeClient.Routes

/-!
# Surroundings of a client

A clock, a network and the messages to the user. What was sent and answered is kept.

* `Surroundings`: clock, network and messages;
* `Surroundings.exchange`: a request is sent and answered.
-/

namespace AcmeClient

/-- Clock, network and messages. -/
structure Surroundings where
  /-- Seconds since the start of 1970. -/
  clock : Int
  /-- The replies to come for each address. -/
  routes : Routes Reply
  /-- What was sent and answered so far. -/
  exchanges : List Exchange
  /-- What the user was told so far. -/
  log : Log
deriving Inhabited

namespace Surroundings

/-- Surroundings in which nothing has happened yet. -/
def start (clock : Int) (routes : Routes Reply) : Surroundings :=
  ⟨clock, routes, [], []⟩

/-- Tell the user something. -/
def note (e : Log.Entry) (s : Surroundings) : Surroundings :=
  { s with log := s.log ++ [e] }

/-- Let time pass. -/
def advance (seconds : Int) (s : Surroundings) : Surroundings :=
  { s with clock := s.clock + seconds }

/-- Send a request. -/
def exchange (q : Request) (s : Surroundings) : Reply × Surroundings :=
  let (reply, routes) := s.routes.next q.url
  let reply := reply.getD (.unreachable ("no route to " ++ q.url))
  (reply, { s with routes := routes, exchanges := s.exchanges ++ [⟨q, reply, s.clock⟩] })

end Surroundings

end AcmeClient
