import Mathlib

namespace Async
set_option autoImplicit true

/-- What the calls of a program share and exchange: the value behind their lock, the requests they
send with the answers to them, what they see around them, and their errors. -/
structure Interface where
  Value : Type
  Request : Type
  Answer : Type
  View : Type
  Error : Type

inductive Op (I : Interface) where
  | lock
  | unlock
  | read
  | write (value : I.Value)
  | look
  | send (request : I.Request)

def Op.Reply : Op I → Type
  | .read => I.Value
  | .look => I.View
  | .send _ => I.Answer
  | _ => Unit

/-- A program performs one operation after the other, each by the replies to those before it, and
ends with a value or an error. -/
inductive Prog (I : Interface) (α : Type) where
  | done (a : α)
  | fail (e : I.Error)
  | perform (op : Op I) (next : op.Reply → Prog I α)

namespace Prog

def bind (f : α → Prog I β) : Prog I α → Prog I β
  | done a => f a
  | fail e => fail e
  | perform op next => perform op fun reply => (next reply).bind f

instance : Monad (Prog I) where
  pure := done
  bind p f := p.bind f

def ask (op : Op I) : Prog I op.Reply := perform op done

/-- The rest of a program that has the lock, which it lets go of however it ends. -/
def guarded : Prog I α → Prog I α
  | done a => perform .unlock fun _ => done a
  | fail e => perform .unlock fun _ => fail e
  | perform op next => perform op fun reply => (next reply).guarded

def locked (p : Prog I α) : Prog I α := perform .lock fun _ => p.guarded

end Prog

inductive Call (I : Interface) (α : Type) where
  | idle
  | running (p : Prog I α)
  | dropped

/-- The value and who holds its lock. -/
structure Shared (I : Interface) (ι : Type) where
  value : I.Value
  holder : Option ι

structure State (I : Interface) (ι α : Type) extends Shared I ι where
  call : ι → Call I α

/-- A call awaits the answer to a request. -/
def State.Sends (s : State I ι α) (i : ι) (request : I.Request) : Prop :=
  ∃ next, s.call i = .running (.perform (.send request) next)

/-- What lets a call go on, with what it sees as it does: it is made, is given the lock or an
answer, or is dropped. -/
inductive Event (I : Interface) where
  | called (view : I.View)
  | granted (view : I.View)
  | answered (view : I.View) (answer : I.Answer)
  | dropped

/-- A call goes on by itself as far as to the lock, to its next request or to its end. -/
def settle (view : I.View) : Prog I α → Shared I ι → Prog I α × Shared I ι
  | .perform .read next, s => settle view (next s.value) s
  | .perform .look next, s => settle view (next view) s
  | .perform (.write value) next, s => settle view (next ()) { s with value := value }
  | .perform .unlock next, s => settle view (next ()) { s with holder := none }
  | p, s => (p, s)

section Calls
variable {ι : Type} [DecidableEq ι]

def State.goOn (s : State I ι α) (i : ι) (view : I.View) (p : Prog I α) : State I ι α :=
  let settled := settle view p s.toShared
  { settled.2 with call := Function.update s.call i (.running settled.1) }

/-- A call that is dropped lets go of the lock if it has it. -/
def State.drop (s : State I ι α) (i : ι) : State I ι α where
  value := s.value
  holder := if s.holder = some i then none else s.holder
  call := Function.update s.call i .dropped

/-- The calls of the programs go on in any order, from one await to the next. -/
def step (programs : ι → Prog I α) (e : ι × Event I) (s : State I ι α) : Option (State I ι α) :=
  match s.call e.1, e.2 with
  | .idle, .called view => some (s.goOn e.1 view (programs e.1))
  | .running (.perform .lock next), .granted view =>
    if s.holder.isSome then none
    else some ({ s with holder := some e.1 }.goOn e.1 view (next ()))
  | .running (.perform (.send _) next), .answered view answer =>
    some (s.goOn e.1 view (next answer))
  | .running (.perform _ _), .dropped => some (s.drop e.1)
  | _, _ => none

end Calls

end Async
