import NgxNdg.Lib.LinkRing

/-!
# The queue macros

A queue is a ring of `ngx_queue_t` links, with the queue head as its sentinel.

## Design notes

A macro substitutes the text of its argument, so an argument is a function of the heap and each
of its uses evaluates it in the heap of that moment.
-/

namespace NgxNdg

open LinkRing

variable {α : Type*}

/-- The argument of a macro, as a text that is evaluated in the heap. -/
abbrev QueueArg (α : Type*) := Links α → α

/-- The text `(h)->next`. -/
def ngxQueueHead (h : α) : QueueArg α := fun m => m.next h

/-- The text `(h)->prev`. -/
def ngxQueueLast (h : α) : QueueArg α := fun m => m.prev h

variable [DecidableEq α]

/-- The macro `ngx_queue_init(q)`. -/
def ngxQueueInit (q : α) (m : Links α) : Links α := (m.setPrev q q).setNext q q

/-- The macro `ngx_queue_empty(h)`. -/
def ngxQueueEmpty (h : α) (m : Links α) : Bool := h == m.prev h

/-- The macro `ngx_queue_insert_after(h, x)`. -/
def ngxQueueInsertAfter (h : QueueArg α) (x : α) (m : Links α) : Links α :=
  let m₁ := m.setNext x (m.next (h m))
  let m₂ := m₁.setPrev (m₁.next x) x
  let m₃ := m₂.setPrev x (h m₂)
  m₃.setNext (h m₃) x

/-- The macro `ngx_queue_insert_before(q, x)`, with the text `(q)->prev` for the argument. -/
def ngxQueueInsertBefore (q x : α) : Links α → Links α :=
  ngxQueueInsertAfter (fun m => m.prev q) x

/-- The macro `ngx_queue_insert_head(h, x)`, the same text as `ngx_queue_insert_after`, with the
queue head in a variable. -/
def ngxQueueInsertHead (h x : α) : Links α → Links α := ngxQueueInsertAfter (fun _ => h) x

/-- The macro `ngx_queue_insert_tail(h, x)`, with the queue head in a variable. -/
def ngxQueueInsertTail (h x : α) (m : Links α) : Links α :=
  let m₁ := m.setPrev x (m.prev h)
  let m₂ := m₁.setNext (m₁.prev x) x
  let m₃ := m₂.setNext x h
  m₃.setPrev h x

/-- The macro `ngx_queue_remove(x)`. -/
def ngxQueueRemove (x : α) (m : Links α) : Links α :=
  let m₁ := m.setPrev (m.next x) (m.prev x)
  m₁.setNext (m₁.prev x) (m₁.next x)

/-- One use of a queue macro. -/
inductive QueueOp (α : Type*) where
  | init (q : α)
  | insertHead (h x : α)
  | insertTail (h x : α)
  /-- `ngx_queue_insert_after(p, x)` with a variable `p` -/
  | insertAfter (p x : α)
  /-- `ngx_queue_insert_after(ngx_queue_head(h), x)` -/
  | insertAfterHead (h x : α)
  | remove (x : α)

/-- The heap behind a use of a macro. -/
def QueueOp.run : QueueOp α → Links α → Links α
  | .init q => ngxQueueInit q
  | .insertHead h x => ngxQueueInsertHead h x
  | .insertTail h x => ngxQueueInsertTail h x
  | .insertAfter p x => ngxQueueInsertAfter (fun _ => p) x
  | .insertAfterHead h x => ngxQueueInsertAfter (ngxQueueHead h) x
  | .remove x => ngxQueueRemove x

end NgxNdg
