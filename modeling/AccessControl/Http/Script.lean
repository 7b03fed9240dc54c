import AccessControl.Http.Message

/-!
# A service that answers from a script

Each request that reaches the service is logged and takes the next reply, which may be none at all.
-/

namespace AccessControl.Http

structure Script where
  reachable : Bool
  replies : List (Option Reply)
  log : List Request
deriving DecidableEq, Repr

namespace Script

def answer (q : Request) (s : Script) : Option Reply × Script :=
  if s.reachable then
    match s.replies with
    | [] => (none, { s with log := s.log ++ [q] })
    | r :: rest => (r, { s with replies := rest, log := s.log ++ [q] })
  else (none, s)

theorem log_answer (q : Request) (s : Script) :
    (s.answer q).2.log = s.log ∨ (s.answer q).2.log = s.log ++ [q] := by
  unfold answer
  split
  · split <;> exact .inr rfl
  · exact .inl rfl

end Script

end AccessControl.Http
