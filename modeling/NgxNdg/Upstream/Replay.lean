import NgxNdg.Lib.Run
import NgxNdg.Upstream.Model

/-!
# The request of every attempt

nginx sends the chain `request_bufs` to an upstream server, and when the attempt fails to the next
one: it calls `reinit_request` and rewinds every buffer of the chain to its `start`. A chain whose
buffers start at their `pos` is sent whole by every attempt. The one of `create_request` has
`start` at `NULL`, and only its first attempt sends the request.

## Main definitions

- `ngxChainUpdateSent`: the buffers behind a write that took some of their bytes
- `nextAttempt`: a failed attempt and the rewind in front of the next one
-/

namespace NgxNdg

open Memory Transition

/-- `ngx_chain_update_sent` for buffers in memory: `sent` bytes have been taken. -/
def ngxChainUpdateSent : ℕ → NgxChain → NgxChain
  | _, [] => []
  | sent, b :: c =>
    let size := b.last - b.pos
    if size ≤ sent then { b with pos := b.last } :: ngxChainUpdateSent (sent - size) c
    else { b with pos := b.pos + sent } :: c

/-- The rewind of a request buffer. -/
def NgxBuf.rewind (b : NgxBuf) : NgxBuf := { b with pos := b.start }

/-- An attempt that fails after `sent` bytes of the request, and the start of the next one. -/
def nextAttempt (u : NgxHttpUpstream) (sent : ℕ) : Option NgxHttpUpstream :=
  let (u, rc) := ngxHttpNdgUpstreamReinitRequest
    { u with requestBufs := ngxChainUpdateSent sent u.requestBufs }
  if rc = ngxOk then some { u with requestBufs := u.requestBufs.map NgxBuf.rewind } else none

/-- An attempt offers the bytes `bytes` when it starts. -/
def Offers (st : Store) (bytes : List UInt8) (u : NgxHttpUpstream) : Prop :=
  chainBytes st u.requestBufs = bytes

variable {st : Store} {u : NgxHttpUpstream} {lfStr args : NgxStr}

/-- The rewind undoes what has been sent. -/
theorem map_rewind_updateSent (sent : ℕ) (c : NgxChain) :
    (ngxChainUpdateSent sent c).map NgxBuf.rewind = c.map NgxBuf.rewind := by
  induction c generalizing sent with
  | nil => rfl
  | cons b c ih =>
    rw [ngxChainUpdateSent]
    split
    · rw [List.map_cons, ih]
      rfl
    · rfl

/-- The next attempt starts with every buffer at its start, whatever has been sent. -/
theorem nextAttempt_eq (u : NgxHttpUpstream) (sent : ℕ) :
    nextAttempt u sent = some { u with requestBufs := u.requestBufs.map NgxBuf.rewind } := by
  rw [← map_rewind_updateSent sent]
  rfl

/-- **Replay.** A chain whose buffers start at their `pos` is offered by every attempt. -/
theorem offers_of_start_eq_pos (h : ∀ b ∈ u.requestBufs, b.start = b.pos) (sents : List ℕ) :
    Along nextAttempt (Offers st (chainBytes st u.requestBufs)) u sents := by
  have hrewind : u.requestBufs.map NgxBuf.rewind = u.requestBufs := by
    have hid : ∀ b ∈ u.requestBufs, b.rewind = id b := fun b hb =>
      congrArg (fun p => { b with pos := p }) (h b hb)
    rw [List.map_congr_left hid, List.map_id]
  have hsame : Along nextAttempt (fun t => t.requestBufs = u.requestBufs) u sents := by
    refine Along.of_invariant (I := fun t : NgxHttpUpstream => t.requestBufs = u.requestBufs) ?_
      rfl sents
    intro s sent t hs hstep
    rw [nextAttempt_eq] at hstep
    obtain rfl := Option.some.inj hstep
    show s.requestBufs.map NgxBuf.rewind = u.requestBufs
    rw [hs, hrewind]
  exact hsame.mono fun t ht => congrArg (chainBytes st) ht

/-- The request is the arguments and the line feed. -/
theorem createRequest_bytes (st : Store) (lfStr args : NgxStr) (u : NgxHttpUpstream) :
    chainBytes st
        (ngxHttpNdgUpstreamCreateRequest ⟨true, true, true, true⟩ lfStr args u).1.requestBufs =
      args.bytes st ++ lfStr.bytes st := by
  simp [ngxHttpNdgUpstreamCreateRequest, NgxBuf.bytes, ngxBufInMemory, NgxStr.bytes]

/-- `create_request` succeeds only when all its allocations do. -/
theorem createRequest_of_ok {allocs : CreateRequestAllocs}
    (h : (ngxHttpNdgUpstreamCreateRequest allocs lfStr args u).2 = ngxOk) :
    allocs = ⟨true, true, true, true⟩ := by
  obtain ⟨b1, b2, l1, l2⟩ := allocs
  revert h
  cases b1 <;> cases b2 <;> cases l1 <;> cases l2 <;>
    simp [ngxHttpNdgUpstreamCreateRequest, ngxError, ngxOk]

/-- Behind a rewind the buffers of `create_request` reach from `NULL` to their ends. -/
theorem length_chainBytes_rewind (st : Store) (lfStr args : NgxStr) (u : NgxHttpUpstream) :
    (chainBytes st ((ngxHttpNdgUpstreamCreateRequest ⟨true, true, true, true⟩ lfStr args
      u).1.requestBufs.map NgxBuf.rewind)).length =
        (args.data + args.len) + (lfStr.data + lfStr.len) := by
  simp [ngxHttpNdgUpstreamCreateRequest, NgxBuf.bytes, ngxBufInMemory, NgxBuf.rewind, ngxCallocBuf]

/-- **Only the first attempt.** Every attempt offers the arguments and the line feed if and only
if there is no attempt behind the first. -/
theorem request_replayed_iff {allocs : CreateRequestAllocs} (hlf : lfStr.bytes st = [lf])
    (hdata : lfStr.data ≠ 0)
    (hok : (ngxHttpNdgUpstreamCreateRequest allocs lfStr args u).2 = ngxOk) (sents : List ℕ) :
    Along nextAttempt (Offers st (args.bytes st ++ [lf]))
      (ngxHttpNdgUpstreamCreateRequest allocs lfStr args u).1 sents ↔ sents = [] := by
  have hfirst := createRequest_bytes st lfStr args u
  rw [hlf] at hfirst
  obtain rfl := createRequest_of_ok hok
  cases sents with
  | nil => exact iff_of_true hfirst rfl
  | cons sent sents =>
    refine iff_of_false (fun h => ?_) (List.cons_ne_nil sent sents)
    have hsecond := (h.2 _ (nextAttempt_eq _ sent)).head
    have hlength := congrArg List.length (hsecond : chainBytes st _ = _)
    rw [length_chainBytes_rewind, List.length_append, NgxStr.length_bytes] at hlength
    have hlen : lfStr.len = 1 := by
      rw [← NgxStr.length_bytes st, hlf]
      rfl
    rw [List.length_singleton] at hlength
    omega

/-- A line feed at the address 1, and the arguments `h` behind it. -/
def lfStore : Store := ⟨fun x => if x = 1 then lf else 104, fun _ _ => 0⟩

/-- The upstream with the request `h`. -/
def requestH : NgxHttpUpstream :=
  (ngxHttpNdgUpstreamCreateRequest ⟨true, true, true, true⟩ ⟨1, 1⟩ ⟨1, 2⟩ ngxHttpUpstreamCreate).1

/-- One attempt. -/
theorem request_replayed_first : Along nextAttempt (Offers lfStore [104, lf]) requestH [] := by
  have hlf : NgxStr.bytes lfStore ⟨1, 1⟩ = [lf] := by decide
  have hok : (ngxHttpNdgUpstreamCreateRequest ⟨true, true, true, true⟩ ⟨1, 1⟩ ⟨1, 2⟩
      ngxHttpUpstreamCreate).2 = ngxOk := rfl
  exact (request_replayed_iff hlf (by decide) hok []).mpr rfl

/-- A second attempt, after the first could not send anything: it offers what is at `NULL`. -/
theorem request_not_replayed : ¬ Along nextAttempt (Offers lfStore [104, lf]) requestH [0] := by
  intro h
  have hsecond : chainBytes lfStore _ = _ := (h.2 _ rfl).head
  revert hsecond
  decide

end NgxNdg
