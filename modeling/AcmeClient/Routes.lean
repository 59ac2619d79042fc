/-!
# Replies by address

Each address is answered by a list of replies, one after the other; the last one is repeated.

* `Routes`: the replies to come for each address;
* `Routes.set`: new replies for an address;
* `Routes.next`: the next reply for an address, and what comes afterwards.
-/

namespace AcmeClient

/-- The replies to come for each address. -/
abbrev Routes (α : Type) := List (String × List α)

namespace Routes

variable {α : Type}

/-- Replace the replies to come for an address. -/
def set (url : String) (replies : List α) : Routes α → Routes α
  | [] => [(url, replies)]
  | (u, rs) :: r => if u = url then (u, replies) :: r else (u, rs) :: set url replies r

/-- A list without its first item, unless that is the last one. -/
def rest : List α → List α
  | [] => []
  | [a] => [a]
  | _ :: b :: r => b :: r

/-- The next reply for an address, if there is any, and the replies afterwards. -/
def next (url : String) : Routes α → Option α × Routes α
  | [] => (none, [])
  | (u, rs) :: r =>
    if u = url then (rs.head?, (u, rest rs) :: r)
    else ((next url r).1, (u, rs) :: (next url r).2)

end Routes

end AcmeClient
