import NodeWatch.Store.Operation

/-!
A store whose calls are recorded and can be made to fail.

Faults stand in a queue. Only the first counts: it waits for calls of its kind, lets some of them
pass and then takes effect once.
-/

namespace NodeWatch.Store

/-- The kinds of calls that faults can be set on. -/
inductive Method where
  | findByAddress
  | create
  | update
  | touch
  | get
  deriving DecidableEq

def Method.text : Method → String
  | findByAddress => "find_by_ip"
  | create => "create"
  | update => "update_fields"
  | touch => "touch_last_seen"
  | get => "get"

def Method.ofText? (s : String) : Option Method :=
  [findByAddress, create, update, touch, get].find? (·.text = s)

def Operation.method? : Operation → Option Method
  | .findByAddress _ => some .findByAddress
  | .create _ => some .create
  | .update .. => some .update
  | .touch .. => some .touch
  | .get _ => some .get
  | .findByName _ | .list | .delete _ => none

/-- What happens instead of a call: it fails, or it misses what others do. A missing call finds
nothing and changes nothing; before a missing update another writer changes the record. -/
inductive Effect where
  | fail (e : Error)
  | miss (race : Patch)

structure Injection where
  /-- A fault on no kind of call waits for ever. -/
  on : Option Method
  skip : Nat
  effect : Effect

/-- A call that was made and how it ended. -/
structure Call where
  op : Operation
  failure : Option Error

/-- A store, the faults before it, and the calls made, the last first. -/
structure Faulty (σ : Type) where
  store : σ
  queue : List Injection := []
  calls : List Call := []

namespace Faulty

variable {σ : Type} (answer : (op : Operation) → σ → op.Answer × σ)

/-- A call that another writer overtakes. -/
def missed (race : Patch) (op : Operation) (s : σ) : op.Answer × σ :=
  match op with
  | .findByAddress _ | .findByName _ | .get _ => (.ok none, s)
  | .create _ => (.error (.unavailable "injected"), s)
  | .touch .. => (.ok (), s)
  | .update id v p => answer (.update id v p) (answer (.update id v race) s).2
  | .list => answer .list s
  | .delete id => answer (.delete id) s

/-- The answer to a call and the faults that are left. -/
def answered (op : Operation) (s : σ) :
    List Injection → op.Answer × σ × List Injection
  | [] => let (a, s) := answer op s; (a, s, [])
  | i :: rest =>
    if op.method?.isSome && i.on = op.method? then
      match i.skip with
      | n + 1 => let (a, s) := answer op s; (a, s, { i with skip := n } :: rest)
      | 0 =>
        match i.effect with
        | .fail e => (.error e, s, rest)
        | .miss race => let (a, s) := missed answer race op s; (a, s, rest)
    else let (a, s) := answer op s; (a, s, i :: rest)

def failureOf {α : Type} : Except Error α → Option Error
  | .ok _ => none
  | .error e => some e

def step (op : Operation) (f : Faulty σ) : op.Answer × Faulty σ :=
  let (a, s, queue) := answered answer op f.store f.queue
  (a, ⟨s, queue, ⟨op, failureOf a⟩ :: f.calls⟩)

end Faulty

end NodeWatch.Store
