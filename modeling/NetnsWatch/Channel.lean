import NetnsWatch.Fault

/-!
# Named channels

A channel carries values in order, without a bound, from any number of senders to one receiver. A
send fails once the receiver is gone. The receiver still gets what was sent before the last sender
went away, and only then learns that nobody sends any more.
-/

namespace NetnsWatch

/-- A channel: its name, what is in flight, how many senders there are, and whether one receives. -/
structure Channel (α : Type) where
  name : String
  queue : List α
  senders : Nat
  receiving : Bool
  deriving DecidableEq, Repr

/-- What a receiver finds. -/
inductive Received (α : Type) where
  | value (value : α)
  | pending
  | disconnected
  deriving DecidableEq, Repr

namespace Channel

variable {α : Type}

/-- An empty channel with a number of senders and a receiver. -/
def create (name : String) (senders : Nat) : Channel α :=
  { name, queue := [], senders, receiving := true }

/-- Send a value, unless nobody receives. -/
def send (value : α) (c : Channel α) : Except Fault (Channel α) :=
  if c.receiving then .ok { c with queue := c.queue ++ [value] }
  else .error (.send (c.name ++ " channel closed"))

/-- Take the oldest value in flight, if there is one. -/
def receive (c : Channel α) : Received α × Channel α :=
  match c.queue with
  | value :: rest => (.value value, { c with queue := rest })
  | [] => (if c.senders = 0 then .disconnected else .pending, c)

/-- One sender more. -/
def addSender (c : Channel α) : Channel α :=
  { c with senders := c.senders + 1 }

/-- One sender fewer. -/
def dropSender (c : Channel α) : Channel α :=
  { c with senders := c.senders - 1 }

/-- Stop receiving; what is in flight is lost. -/
def dropReceiver (c : Channel α) : Channel α :=
  { c with queue := [], receiving := false }

section Lemmas

variable {c : Channel α} {value : α} {rest : List α}

/-- A send is the last in the queue while somebody receives. -/
theorem send_of_receiving (h : c.receiving = true) :
    c.send value = .ok { c with queue := c.queue ++ [value] } := if_pos h

/-- A send fails when nobody receives. -/
theorem send_of_not_receiving (h : c.receiving = false) :
    c.send value = .error (.send (c.name ++ " channel closed")) := by
  rw [send, h]
  rfl

/-- The oldest value in flight is received first. -/
theorem receive_of_cons (h : c.queue = value :: rest) :
    c.receive = (.value value, { c with queue := rest }) := by
  rw [receive, h]

/-- With nothing in flight the receiver learns whether anybody still sends. -/
theorem receive_of_nil (h : c.queue = []) :
    c.receive = (if c.senders = 0 then .disconnected else .pending, c) := by
  rw [receive, h]

end Lemmas

end Channel

end NetnsWatch
