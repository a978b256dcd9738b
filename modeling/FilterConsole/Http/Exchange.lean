import FilterConsole.Http.Client

/-! Calls together with their requests and the replies to them. -/

namespace FilterConsole.Http

abbrev Delivery := Request × Reply

structure Exchange where
  call : Call
  sent : Option Delivery
  deriving DecidableEq, Repr

def Exchange.reply (x : Exchange) : Reply := (x.sent.map (·.2)).getD .unreachable

/-- Calls with the deliveries that were made, in their order. Calls beyond the last one were not sent; nothing follows
such a call, because it fails. -/
def exchanges : List Call → List Delivery → List Exchange
  | [], _ => []
  | c :: calls, [] => ⟨c, none⟩ :: exchanges calls []
  | c :: calls, d :: deliveries => ⟨c, some d⟩ :: exchanges calls deliveries

def Network.keeping {σ : Type} (network : Network σ) : Network (σ × List Delivery) := fun r (s, kept) =>
  let (reply, s) := network r s
  (reply, s, (r, reply) :: kept)

end FilterConsole.Http
