import NgxNdg.Echo.EndMark
import NgxNdg.Filter.Header

/-!
# Responses through the filters

The content handlers of the echo and of the thread module announce the size of one buffer, which
has the end mark, and then give it to the output filter. In front of the filters of nginx stand
those of the filter module, whose results decide how the handler goes on. The first thing that
fails on the way decides how a response ends: it may end before its headers, behind them, or in
the dereference of a chain link, and else it is forwarded as a whole.

## Main definitions

- `Content.respond`: a content handler with the filters
- `Content.ending`: what fails first on the way of a response
- `EndsAs`: what is forwarded of a response, and the code that its handler ends with
-/

namespace NgxNdg

open FirstMark Memory

-- ════════════════════════════════════════════════════════════════════════
-- The handlers and the filters
-- ════════════════════════════════════════════════════════════════════════

/-- What a response gets in the filters: the allocations of those of the module, and the results
of the filters behind them. -/
structure FilterOutcomes where
  header : HeaderFilterAllocs
  body : BodyFilterAllocs
  nextHeader : ℤ
  nextBody : ℤ

/-- A response as the filters behind those of the module get it: the length in the headers, when
they get these, the chain, when they get one, with the memory, and the code that the handler ends
with, `none` for the dereference of `NULL`. -/
structure FilteredResponse where
  announced : Option ℤ
  body : Option NgxChain
  store : Store
  rc : Option ℤ

/-- The posted task of a pass through the thread module. -/
def ThreadRun.posted (run : ThreadRun) : Option NgxThreadTask :=
  (ngxHttpNdgThreadHandler run.handler run.id run.r run.isMain run.handlerPool
    run.handlerMain).2.2.1

/-- The length with which the handler calls `ngx_http_send_header`, `none` when it ends before
that. -/
def Content.declared : Content → Option ℤ
  | .echo msg r o pool h =>
    if r.methodGet && o.discardBody == ngxOk then
      some (ngxHttpNdgEchoHandler msg r o pool h).2.1.contentLengthN
    else none
  | .thread run =>
    match run.posted with
    | none => none
    | some task =>
      let task := task.run run.taskPool
      if task.ctx.rc = ngxOk then
        some (ngxHttpNdgThreadEventHandler run.event task run.eventMain
          run.headersOut).2.1.contentLengthN
      else none

/-- How the handler goes on when `ngx_http_send_header` returns `sendHeader`: the memory, and the
chain for the output filter with the code of the handler, where that is not the one of the output
filter. -/
def Content.finish (sendHeader : ℤ) : Content → Store × Option (NgxChain × ℤ)
  | .echo msg r o pool h =>
    let (pool, _, sent) := ngxHttpNdgEchoHandler msg r { o with sendHeader := sendHeader } pool h
    (pool.toStore, sent)
  | .thread run =>
    match run.posted with
    | none =>
      let (pool, _, _, rc) :=
        ngxHttpNdgThreadHandler run.handler run.id run.r run.isMain run.handlerPool
          run.handlerMain
      (pool.toStore, some ([], rc))
    | some task =>
      ((ngxHttpNdgThreadTaskHandler run.taskPool task.ctx).1.toStore,
        (ngxHttpNdgThreadEventHandler { run.event with sendHeader := sendHeader }
          (task.run run.taskPool) run.eventMain run.headersOut).2.2)

/-- The output of a content through the body filter. -/
def outputFiltered (lcf : NgxHttpNdgFilterLocConf) (o : FilterOutcomes) (r : FilterRequest)
    (announced : Option ℤ) : Store × Option (NgxChain × ℤ) → FilteredResponse
  | (st, none) => ⟨announced, none, st, none⟩
  | (st, some ([], rc)) => ⟨announced, none, st, some rc⟩
  | (st, some (b :: bs, _)) =>
    match ngxHttpNdgBodyFilter lcf o.body r (b :: bs) with
    | none => ⟨announced, none, st, none⟩
    | some (_, out, .next) => ⟨announced, some out, st, some o.nextBody⟩
    | some (_, _, .code rc) => ⟨announced, none, st, some rc⟩

/-- The response of a content handler to a request with the headers `hs`, through the filters of
the module. -/
def Content.respond (lcf : NgxHttpNdgFilterLocConf) (o : FilterOutcomes) (hs : List NgxTableElt)
    (c : Content) : FilteredResponse :=
  match c.declared with
  | none => outputFiltered lcf o (.fresh hs) none (c.finish ngxError)
  | some d =>
    match ngxHttpNdgHeaderFilter lcf o.header
      { FilterRequest.fresh hs with contentLengthN := d } with
    | (r, .next) => outputFiltered lcf o r (some r.contentLengthN) (c.finish o.nextHeader)
    | (r, .code rc) => outputFiltered lcf o r none (c.finish rc)

/-- The text that a content handler answers with. -/
def Content.text : Content → List UInt8
  | .echo msg r _ pool _ => echoBytes pool.toStore msg r.args
  | .thread _ => helloNginxThread

def Content.headerOnly : Content → Bool
  | .echo _ r _ _ _ => r.headerOnly
  | .thread run => run.event.headerOnly

/-- The message of an echo location is in allocated memory. -/
def Content.Allocated : Content → Prop
  | .echo msg _ _ pool _ => msg.data + msg.len ≤ pool.brk
  | .thread _ => True

/-- The handler has a response to send: the method is `GET` and its body could be thrown away, or
the task was posted. -/
def Content.responds : Content → Bool
  | .echo _ r o _ _ => r.methodGet && o.discardBody == ngxOk
  | .thread run =>
    run.handler.pool && run.handler.task && run.handler.buf && run.handler.post

/-- The buffer of the handler is made; that of a posted task has been. -/
def Content.buf : Content → Bool
  | .echo _ _ o _ _ => o.buf
  | .thread _ => true

/-- The chain link of the handler is made. -/
def Content.link : Content → Bool
  | .echo _ _ o _ _ => o.link
  | .thread run => run.event.link

/-- The header filter of the module makes its context and pushes all its headers. -/
def FilterOutcomes.passesHeaders (lcf : NgxHttpNdgFilterLocConf) (o : FilterOutcomes) : Bool :=
  o.header.ctx && (configured lcf).all fun e => o.header.push e.2

/-- The footer is due behind a text: an `ndg_header` list, or a text that is not empty, sets the
flag for it. -/
def footerDue (lcf : NgxHttpNdgFilterLocConf) (text : List UInt8) : Bool :=
  lcf.footer.len != 0 && (lcf.headers.isSome || text != [])

/-- The length that the headers of a text announce. -/
def announcedLength (lcf : NgxHttpNdgFilterLocConf) (text : List UInt8) : ℤ :=
  if Announces lcf text.length then (text.length : ℤ) + lcf.footer.len else text.length

/-- How a response can end. -/
inductive ResponseEnd where
  /-- its headers are not passed on -/
  | refused
  /-- no body is to follow its headers -/
  | headers
  /-- behind its headers a buffer cannot be made -/
  | cut
  /-- behind its headers a chain link cannot be made, and is dereferenced -/
  | null
  | whole
  deriving DecidableEq

/-- The end of a response behind its headers. -/
def Content.bodyEnding (lcf : NgxHttpNdgFilterLocConf) (o : FilterOutcomes) (c : Content) :
    ResponseEnd :=
  if !bodyFollows o.nextHeader c.headerOnly then .headers
  else if !c.buf then .cut
  else if !c.link then .null
  else if !footerDue lcf c.text then .whole
  else if !o.body.buf then .cut
  else if c.text != [] && !o.body.link then .null
  else .whole

/-- The end of a response, by what fails first on its way. -/
def Content.ending (lcf : NgxHttpNdgFilterLocConf) (o : FilterOutcomes) (c : Content) :
    ResponseEnd :=
  if !c.responds || !o.passesHeaders lcf then .refused else c.bodyEnding lcf o

/-- What is forwarded of the response, and the code its handler ends with. A whole response is the
text, and the footer where it is due, up to the end mark; it has the announced length unless an
`ndg_header` list brings the footer to an empty text. -/
def EndsAs (lcf : NgxHttpNdgFilterLocConf) (o : FilterOutcomes) (text : List UInt8)
    (resp : FilteredResponse) : ResponseEnd → Prop
  | .refused => resp.announced = none ∧ resp.body = none ∧ ∃ rc, resp.rc = some rc ∧ rc ≠ ngxOk
  | .headers => resp.announced = some (announcedLength lcf text) ∧ resp.body = none ∧
      resp.rc = some o.nextHeader
  | .cut => resp.announced = some (announcedLength lcf text) ∧ resp.body = none ∧
      resp.rc = some ngxHttpInternalServerError
  | .null => resp.announced = some (announcedLength lcf text) ∧ resp.body = none ∧ resp.rc = none
  | .whole => resp.announced = some (announcedLength lcf text) ∧ resp.rc = some o.nextBody ∧
      ∃ out, resp.body = some out ∧ EndsMarked [out] ∧
        chainBytes resp.store out =
          text ++ (if lcf.headers.isSome ∨ text ≠ [] then lcf.footer.bytes resp.store else []) ∧
        ((chainBytes resp.store out).length = announcedLength lcf text ↔
          lcf.footer.len = 0 ∨ lcf.headers = none ∨ text ≠ [])

variable {lcf : NgxHttpNdgFilterLocConf} {o : FilterOutcomes} {c : Content} {d : ℤ}

-- ════════════════════════════════════════════════════════════════════════
-- The handlers
-- ════════════════════════════════════════════════════════════════════════

/-- How a content handler goes on behind `ngx_http_send_header`: with its result when no body is to
follow, with an error, with the dereference of `NULL`, or with its text in one buffer. -/
inductive Finished (c : Content) (sendHeader : ℤ) : Store × Option (NgxChain × ℤ) → Prop
  | header (st : Store) (hbody : bodyFollows sendHeader c.headerOnly = false) :
    Finished c sendHeader (st, some ([], sendHeader))
  | error (st : Store) (hbody : bodyFollows sendHeader c.headerOnly = true)
    (hbuf : c.buf = false) : Finished c sendHeader (st, some ([], ngxHttpInternalServerError))
  | null (st : Store) (hbody : bodyFollows sendHeader c.headerOnly = true)
    (hbuf : c.buf = true) (hlink : c.link = false) : Finished c sendHeader (st, none)
  | body (st : Store) (b : NgxBuf) (rc : ℤ) (hbody : bodyFollows sendHeader c.headerOnly = true)
    (hbuf : c.buf = true) (hlink : c.link = true) (hmark : b.lastBuf = true)
    (htext : b.bytes st = c.text) (hsize : ngxBufSize b = c.text.length) :
    Finished c sendHeader (st, some ([b], rc))

theorem length_echoBytes (st : Store) (msg args : NgxStr) :
    (echoBytes st msg args).length =
      if args.len ≠ 0 then msg.len + (args.len + 1) else msg.len := by
  unfold echoBytes
  by_cases hargs : args.len = 0
  · simp [hargs]
  · simp only [hargs, if_false, List.length_append, NgxStr.length_bytes, List.length_singleton,
      ne_eq, not_false_iff, if_true]
    omega

theorem echoHandler_contentLengthN {r : EchoRequest} {o : EchoOutcomes} (msg : NgxStr)
    (pool : NgxPool) (h : HeadersOut) (hget : r.methodGet = true)
    (hdiscard : o.discardBody = ngxOk) :
    (ngxHttpNdgEchoHandler msg r o pool h).2.1.contentLengthN =
      (echoBytes pool.toStore msg r.args).length := by
  rw [length_echoBytes]
  obtain ⟨discardBody, sendHeader, buf, link, output⟩ := o
  obtain rfl : discardBody = ngxOk := hdiscard
  simp only [ngxHttpNdgEchoHandler, hget]
  cases bodyFollows sendHeader r.headerOnly <;> cases buf <;> cases link <;> simp

theorem echo_finished {msg : NgxStr} {r : EchoRequest} {o : EchoOutcomes} {pool : NgxPool}
    {h : HeadersOut} (hmsg : msg.data + msg.len ≤ pool.brk) (hget : r.methodGet = true)
    (hdiscard : o.discardBody = ngxOk) (sendHeader : ℤ) :
    Finished (.echo msg r o pool h) sendHeader
      (Content.finish sendHeader (.echo msg r o pool h)) := by
  obtain ⟨discardBody, sent, buf, link, output⟩ := o
  obtain rfl : discardBody = ngxOk := hdiscard
  cases hbody : bodyFollows sendHeader r.headerOnly with
  | false =>
    simp only [Content.finish, ngxHttpNdgEchoHandler, hget, hbody]
    exact .header _ hbody
  | true =>
    cases buf with
    | false =>
      simp only [Content.finish, ngxHttpNdgEchoHandler, hget, hbody]
      exact .error _ hbody rfl
    | true =>
      cases link with
      | false =>
        simp only [Content.finish, ngxHttpNdgEchoHandler, hget, hbody]
        exact .null _ hbody rfl rfl
      | true =>
        obtain ⟨pool', b, hcall, htext, hmark, -⟩ :=
          echoHandler_output (o := ⟨ngxOk, sendHeader, true, true, output⟩) h hget rfl hbody rfl rfl
            hmsg
        have hsize := echoHandler_contentLengthN (o := ⟨ngxOk, sendHeader, true, true, output⟩) msg
          pool h hget rfl
        rw [hcall] at hsize
        simp only [Content.finish, hcall]
        exact .body _ b output hbody rfl rfl hmark htext hsize

/-- Where the buffer of a task begins. -/
def NgxThreadTask.bufPos (t : NgxThreadTask) : ℕ := t.ctx.buf.elim 0 NgxBuf.pos

/-- The buffer of a task as the request handler leaves it. -/
def freshBuf (a : ℕ) : NgxBuf :=
  { ngxCallocBuf with pos := a, last := a, start := a, bufEnd := a + 100, temporary := true }

/-- The buffer of a task as the task handler leaves it. -/
def filledBuf (a : ℕ) : NgxBuf :=
  { freshBuf a with last := a + 18, lastBuf := true, lastInChain := true }

/-- A task when its task handler has run. -/
def NgxThreadTask.filled (t : NgxThreadTask) : NgxThreadTask :=
  ⟨t.id, { t.ctx with buf := some (filledBuf t.bufPos) }, true⟩

/-- The task handler fills the buffer of its task. -/
theorem taskHandler_fresh (pool : NgxPool) {u : NgxThreadTask}
    (hbuf : u.ctx.buf = some (freshBuf u.bufPos)) :
    (ngxHttpNdgThreadTaskHandler pool u.ctx).1 =
        { pool with mem := fill pool.mem u.bufPos helloNginxThread } ∧
      u.run pool = u.filled := by
  have htake : helloNginxThread.take (u.bufPos + 100 - u.bufPos) = helloNginxThread := by
    rw [Nat.add_sub_cancel_left]
    rfl
  have hmin : min helloNginxThread.length (u.bufPos + 100 - u.bufPos) = 18 := by
    rw [Nat.add_sub_cancel_left]
    rfl
  unfold NgxThreadTask.run ngxHttpNdgThreadTaskHandler
  rw [hbuf]
  constructor
  · exact congrArg (fun text => { pool with mem := fill pool.mem u.bufPos text }) htake
  · show (⟨u.id, { u.ctx with buf := some { freshBuf u.bufPos with
      last := u.bufPos + min helloNginxThread.length (u.bufPos + 100 - u.bufPos)
      lastBuf := true, lastInChain := true } }, true⟩ : NgxThreadTask) = _
    rw [hmin]
    rfl

/-- A task is posted exactly where nothing fails in the request handler; it then has the buffer
that was made for it. -/
theorem ThreadRun.posted_cases (run : ThreadRun) :
    ((Content.thread run).responds = false ∧ run.posted = none ∧
      (ngxHttpNdgThreadHandler run.handler run.id run.r run.isMain run.handlerPool
        run.handlerMain).2.2.2 = ngxError) ∨
    ((Content.thread run).responds = true ∧ ∃ task, run.posted = some task ∧
      task.ctx.rc = ngxOk ∧ task.ctx.buf = some (freshBuf task.bufPos)) := by
  obtain ⟨⟨pending, hpool, htask, hbuf, hpost⟩, event, id, r, isMain, pool, pool', main, main',
    headersOut⟩ := run
  cases hpool
  · exact .inl ⟨rfl, rfl, rfl⟩
  cases htask
  · exact .inl ⟨rfl, rfl, rfl⟩
  cases hbuf
  · exact .inl ⟨rfl, rfl, rfl⟩
  cases hpost
  · exact .inl ⟨rfl, rfl, rfl⟩
  · exact .inr ⟨rfl, _, rfl, rfl, rfl⟩

theorem filledBuf_size (a : ℕ) : ngxBufSize (filledBuf a) = helloNginxThread.length := by
  show ((a + 18 : ℕ) : ℤ) - a = 18
  omega

/-- What the event handler does with a task whose task handler has run. -/
theorem threadEventHandler_filled (o : ThreadEventOutcomes) {task : NgxThreadTask}
    (hrc : task.ctx.rc = ngxOk) (main : MainRefs) (h : HeadersOut) :
    ngxHttpNdgThreadEventHandler o task.filled main h =
      ({ main with blocked := main.blocked - 1 }, ⟨ngxHttpOk, helloNginxThread.length⟩,
        if !o.sendsBody then some ([], o.sendHeader)
        else if !o.link then none
        else some ([filledBuf task.bufPos], o.output)) := by
  have hfilled : task.filled.ctx.buf = some (filledBuf task.bufPos) := rfl
  have hok : task.filled.ctx.rc = ngxOk := hrc
  simp only [ngxHttpNdgThreadEventHandler, hok, hfilled, filledBuf_size]
  cases o.sendsBody <;> cases o.link <;> rfl

theorem thread_finished {run : ThreadRun} {task : NgxThreadTask} (hposted : run.posted = some task)
    (hrc : task.ctx.rc = ngxOk) (hbuf : task.ctx.buf = some (freshBuf task.bufPos))
    (sendHeader : ℤ) :
    (Content.thread run).declared = some (helloNginxThread.length : ℤ) ∧
      Finished (.thread run) sendHeader (Content.finish sendHeader (.thread run)) := by
  obtain ⟨hpool, hrun⟩ := taskHandler_fresh run.taskPool hbuf
  have hok : task.filled.ctx.rc = ngxOk := hrc
  constructor
  · simp only [Content.declared, hposted, hrun, hok, if_true, threadEventHandler_filled _ hrc]
  · simp only [Content.finish, hposted, hpool, hrun, threadEventHandler_filled _ hrc,
      ThreadEventOutcomes.sendsBody]
    cases hbody : bodyFollows sendHeader run.event.headerOnly with
    | false => exact .header _ hbody
    | true =>
      cases hlink : run.event.link with
      | false => exact .null _ hbody rfl hlink
      | true =>
        exact .body _ (filledBuf task.bufPos) _ hbody rfl hlink rfl (cells_fill_self _ _ _)
          (filledBuf_size _)

/-- A content handler that has no response to send ends with an error. -/
theorem finish_of_not_responds (h : c.responds = false) (sendHeader : ℤ) :
    c.declared = none ∧ ∃ st rc, c.finish sendHeader = (st, some ([], rc)) ∧ rc ≠ ngxOk := by
  cases c with
  | echo msg r o pool h' =>
    cases hget : r.methodGet with
    | false =>
      refine ⟨by simp [Content.declared, hget], pool.toStore, ngxHttpNotAllowed, ?_, by decide⟩
      simp [Content.finish, ngxHttpNdgEchoHandler, hget]
    | true =>
      have hdiscard : o.discardBody ≠ ngxOk := by
        intro hdiscard
        simp [Content.responds, hget, hdiscard] at h
      refine ⟨by simp [Content.declared, hdiscard], pool.toStore, o.discardBody, ?_, hdiscard⟩
      simp [Content.finish, ngxHttpNdgEchoHandler, hget, hdiscard]
  | thread run =>
    obtain ⟨-, hposted, hrc⟩ | ⟨hresponds, -⟩ := run.posted_cases
    · refine ⟨by simp only [Content.declared, hposted], (ngxHttpNdgThreadHandler run.handler run.id
        run.r run.isMain run.handlerPool run.handlerMain).1.toStore, ngxError, ?_, by decide⟩
      simp only [Content.finish, hposted, hrc]
    · exact absurd (hresponds.symm.trans h) (by decide)

/-- A content handler that has a response to send announces the length of its text. -/
theorem finish_of_responds (hc : c.Allocated) (h : c.responds = true) (sendHeader : ℤ) :
    c.declared = some (c.text.length : ℤ) ∧ Finished c sendHeader (c.finish sendHeader) := by
  cases c with
  | echo msg r o pool h' =>
    simp only [Content.responds, Bool.and_eq_true, beq_iff_eq] at h
    obtain ⟨hget, hdiscard⟩ := h
    refine ⟨?_, echo_finished hc hget hdiscard sendHeader⟩
    simp only [Content.declared, hget, hdiscard, beq_self_eq_true, Bool.and_self, if_true]
    exact congrArg some (echoHandler_contentLengthN msg pool h' hget hdiscard)
  | thread run =>
    obtain ⟨hnot, -⟩ | ⟨-, task, hposted, hrc, hbuf⟩ := run.posted_cases
    · exact absurd (hnot.symm.trans h) (by decide)
    · exact thread_finished hposted hrc hbuf sendHeader

-- ════════════════════════════════════════════════════════════════════════
-- The filters
-- ════════════════════════════════════════════════════════════════════════

theorem ctx_addFooterLen (lcf : NgxHttpNdgFilterLocConf) {r : FilterRequest}
    (h : r.ctx.isSome) : (addFooterLen lcf r).ctx.isSome := by
  unfold addFooterLen
  split
  · rfl
  · exact h

/-- The header filter fails, or calls the next one with the flag and the length for the footer. -/
theorem headerFilter_fresh (lcf : NgxHttpNdgFilterLocConf) (o : FilterOutcomes)
    (hs : List NgxTableElt) (text : List UInt8) :
    (o.passesHeaders lcf = false ∧ ∃ r, ngxHttpNdgHeaderFilter lcf o.header
        { FilterRequest.fresh hs with contentLengthN := text.length } = (r, .code ngxError)) ∨
      (o.passesHeaders lcf = true ∧ ∃ r, ngxHttpNdgHeaderFilter lcf o.header
          { FilterRequest.fresh hs with contentLengthN := text.length } = (r, .next) ∧
        r.ctx.isSome ∧
        r.flag = (if lcf.headers.isSome ∨ Announces lcf text.length then 1 else 0) ∧
        r.contentLengthN = announcedLength lcf text) := by
  obtain ⟨⟨ctx, push⟩, body, nextHeader, nextBody⟩ := o
  cases ctx with
  | false => exact .inl ⟨rfl, _, rfl⟩
  | true =>
    have hreach : ReachesHeaders ⟨true, push⟩
        { FilterRequest.fresh hs with contentLengthN := text.length } := ⟨.inr rfl, le_rfl⟩
    by_cases hok : ∀ e ∈ configured lcf, push e.2 = true
    · refine .inr ⟨by simpa [FilterOutcomes.passesHeaders] using hok, _,
        headerFilter_of_ok hreach hok, ?_, ?_⟩
      · exact ctx_addFooterLen lcf rfl
      · have hpass := headerFilter_of_ok_flag hreach hok
        rw [headerFilter_of_ok hreach hok] at hpass
        exact hpass
    · refine .inl ⟨by simpa [FilterOutcomes.passesHeaders] using hok, ?_⟩
      push Not at hok
      obtain ⟨e, he, hpush⟩ := hok
      exact ⟨_, headerFilter_of_fail hreach ⟨e, he, Bool.eq_false_iff.mpr hpush⟩⟩

/-- With a context, and without a footer or the flag at 1, a call forwards its chain. -/
theorem bodyFilter_forward_ctx {r : FilterRequest} (al : BodyFilterAllocs) (hctx : r.ctx.isSome)
    (h : lcf.footer.len = 0 ∨ r.flag ≠ 1) (chain : NgxChain) :
    ∃ r', ngxHttpNdgBodyFilter lcf al r chain = some (r', chain, .next) := by
  obtain ⟨r', hcall⟩ | ⟨⟨hnone, -⟩, -⟩ | ⟨hf, hr, -⟩ := bodyFilter_cases lcf al r chain
  · exact ⟨r', hcall⟩
  · rw [hnone] at hctx
    cases hctx
  · exact absurd h (not_or.mpr ⟨hf, not_not.mpr hr⟩)

/-- What the body filter does with one marked buffer, where the flag is set for the footer. -/
theorem bodyFilter_single_footer {r : FilterRequest} {b : NgxBuf} (al : BodyFilterAllocs)
    (hf : lcf.footer.len ≠ 0) (hr : r.flag = 1) (hmark : b.lastBuf = true) :
    (al.buf = false ∧ ∃ r', ngxHttpNdgBodyFilter lcf al r [b] =
      some (r', [b], .code ngxHttpInternalServerError)) ∨
    (al.buf = true ∧ ngxBufSize b ≠ 0 ∧ al.link = false ∧
      ngxHttpNdgBodyFilter lcf al r [b] = none) ∨
    (al.buf = true ∧ (ngxBufSize b ≠ 0 → al.link = true) ∧
      ∃ r' out, ngxHttpNdgBodyFilter lcf al r [b] = some (r', out, .next) ∧ EndsMarked [out] ∧
        ∀ st, chainBytes st out = b.bytes st ++ lcf.footer.bytes st) := by
  have hcall := @bodyFilter_at_mark lcf r [] [] b al hf hr unmarked_nil hmark
  rw [List.nil_append] at hcall
  split at hcall
  · next hbuf => exact .inl ⟨hbuf, _, hcall⟩
  next hbuf =>
  have hbuf : al.buf = true := Bool.eq_true_of_not_eq_false hbuf
  split at hcall
  · next hlink => exact .inr (.inl ⟨hbuf, hlink.1, hlink.2, hcall⟩)
  next hlink =>
  obtain ⟨q, happ, hq, hbytes⟩ := appendFooter_eq lcf.footer [] b
  refine .inr (.inr ⟨hbuf, fun hsize => ?_, _, _, hcall, ?_, fun st => ?_⟩)
  · exact Bool.eq_true_of_not_eq_false fun hfalse => hlink ⟨hsize, hfalse⟩
  · exact ⟨[] ++ q, footerBuf lcf.footer, by rw [List.flatten_singleton, happ], hq, rfl⟩
  · rw [happ, chainBytes_append, List.nil_append, hbytes st, chainBytes_cons, footerBuf_bytes,
      chainBytes_nil, List.append_nil]

-- ════════════════════════════════════════════════════════════════════════
-- The responses
-- ════════════════════════════════════════════════════════════════════════

theorem announces_length_iff {text : List UInt8} :
    Announces lcf text.length ↔ lcf.footer.len ≠ 0 ∧ text ≠ [] := by
  refine and_congr_right fun _ => ?_
  rw [← List.length_pos_iff]
  omega

theorem footerDue_iff {text : List UInt8} :
    footerDue lcf text = true ↔ lcf.footer.len ≠ 0 ∧ (lcf.headers.isSome ∨ text ≠ []) := by
  simp [footerDue]

/-- Behind headers that were passed on, the flag is 1 where the footer is due, if there is one. -/
theorem flag_eq_one_iff {text : List UInt8} {flag : ℤ} (hf : lcf.footer.len ≠ 0)
    (hflag : flag = if lcf.headers.isSome ∨ Announces lcf text.length then 1 else 0) :
    flag = 1 ↔ footerDue lcf text = true := by
  have hset : lcf.headers.isSome ∨ Announces lcf text.length ↔ footerDue lcf text = true := by
    rw [footerDue_iff, and_iff_right hf, announces_length_iff, and_iff_right hf]
  rw [hflag, ← hset]
  split
  · next h => exact iff_of_true rfl h
  · next h => exact iff_of_false (by decide) h

/-- The text of a whole response ends with the footer where that is due, and else alone. -/
theorem footer_of_not_due (st : Store) {text : List UInt8} (h : footerDue lcf text = false) :
    (if lcf.headers.isSome ∨ text ≠ [] then lcf.footer.bytes st else []) = [] := by
  split
  · next hset =>
    refine List.eq_nil_of_length_eq_zero ?_
    rw [NgxStr.length_bytes]
    by_contra hf
    exact absurd (footerDue_iff.mpr ⟨hf, hset⟩) (by rw [h]; exact Bool.false_ne_true)
  · rfl

/-- The announced length is that of the text and the footer, unless an `ndg_header` list brings the
footer to an empty text. -/
theorem framed_iff {text footer : List UInt8} (hfooter : footer.length = lcf.footer.len) :
    ((text ++ if lcf.headers.isSome ∨ text ≠ [] then footer else []).length : ℤ) =
        announcedLength lcf text ↔
      lcf.footer.len = 0 ∨ lcf.headers = none ∨ text ≠ [] := by
  rw [announcedLength, if_congr announces_length_iff rfl rfl, List.length_append, ← hfooter]
  by_cases htext : text = []
  · subst htext
    cases hheaders : lcf.headers with
    | none => simp
    | some data => simp
  · simp [htext]

/-- No more is announced than the text and the footer. -/
theorem announced_le {text footer : List UInt8} (hfooter : footer.length = lcf.footer.len) :
    announcedLength lcf text ≤
      (text ++ if lcf.headers.isSome ∨ text ≠ [] then footer else []).length := by
  rw [announcedLength, List.length_append]
  split
  · next hann =>
    rw [if_pos (.inr (announces_length_iff.mp hann).2), hfooter, Nat.cast_add]
  · exact Int.ofNat_le.mpr (Nat.le_add_right _ _)

/-- The response of a buffer with the text, behind headers that were passed on. -/
theorem outputFiltered_body {st : Store} {b : NgxBuf} {rc : ℤ} {text : List UInt8}
    {r : FilterRequest} (hctx : r.ctx.isSome)
    (hflag : r.flag = if lcf.headers.isSome ∨ Announces lcf text.length then 1 else 0)
    (hmark : b.lastBuf = true) (htext : b.bytes st = text)
    (hsize : ngxBufSize b = text.length) :
    EndsAs lcf o text
      (outputFiltered lcf o r (some (announcedLength lcf text)) (st, some ([b], rc)))
      (if !footerDue lcf text then .whole
        else if !o.body.buf then .cut
        else if text != [] && !o.body.link then .null
        else .whole) := by
  have hframed := @framed_iff lcf text _ (NgxStr.length_bytes st lcf.footer)
  have hempty : ngxBufSize b ≠ 0 ↔ text ≠ [] := by
    rw [hsize, ← List.length_pos_iff]
    omega
  unfold outputFiltered
  cases hdue : footerDue lcf text with
  | false =>
    have hfwd : lcf.footer.len = 0 ∨ r.flag ≠ 1 := by
      by_cases hf : lcf.footer.len = 0
      · exact .inl hf
      · refine .inr fun hr => ?_
        exact absurd (hdue.symm.trans ((flag_eq_one_iff hf hflag).mp hr)) (by decide)
    obtain ⟨r', hcall⟩ := bodyFilter_forward_ctx o.body hctx hfwd [b]
    have htotal : chainBytes st [b] =
        text ++ if lcf.headers.isSome ∨ text ≠ [] then lcf.footer.bytes st else [] := by
      rw [footer_of_not_due st hdue, chainBytes_cons, chainBytes_nil, htext]
    simp only [hcall, Bool.not_false, if_true]
    refine ⟨rfl, rfl, [b], rfl, ⟨[], b, rfl, unmarked_nil, hmark⟩, htotal, ?_⟩
    rw [htotal]
    exact hframed
  | true =>
    obtain ⟨hf, hset⟩ := footerDue_iff.mp hdue
    have hr : r.flag = 1 := (flag_eq_one_iff hf hflag).mpr hdue
    obtain ⟨hbuf, r', hcall⟩ | ⟨hbuf, hne, hlink, hcall⟩ | ⟨hbuf, hlink, r', out, hcall, hends,
      hbytes⟩ := bodyFilter_single_footer o.body hf hr hmark
    · simp [EndsAs, hcall, hbuf]
    · simp [EndsAs, hcall, hbuf, hlink, hempty.mp hne]
    · have hnull : (text != [] && !o.body.link) = false := by
        by_cases hnil : text = []
        · simp [hnil]
        · simp [hlink (hempty.mpr hnil)]
      have htotal : chainBytes st out =
          text ++ if lcf.headers.isSome ∨ text ≠ [] then lcf.footer.bytes st else [] := by
        rw [hbytes st, htext, if_pos hset]
      simp only [hcall, hbuf, hnull, Bool.not_true]
      refine ⟨rfl, rfl, out, rfl, hends, htotal, ?_⟩
      rw [htotal]
      exact hframed

/-- Behind headers that were passed on, the handler brings its response to its end. -/
theorem outputFiltered_endsAs {r : FilterRequest} {finish : Store × Option (NgxChain × ℤ)}
    (h : Finished c o.nextHeader finish) (hctx : r.ctx.isSome)
    (hflag : r.flag = if lcf.headers.isSome ∨ Announces lcf c.text.length then 1 else 0) :
    EndsAs lcf o c.text
      (outputFiltered lcf o r (some (announcedLength lcf c.text)) finish) (c.bodyEnding lcf o) := by
  unfold Content.bodyEnding
  cases h with
  | header st hbody =>
    simp only [hbody, Bool.not_false, if_true]
    exact ⟨rfl, rfl, rfl⟩
  | error st hbody hbuf =>
    simp only [hbody, hbuf, Bool.not_true, Bool.not_false, if_true]
    exact ⟨rfl, rfl, rfl⟩
  | null st hbody hbuf hlink =>
    simp only [hbody, hbuf, hlink, Bool.not_true, Bool.not_false, if_true]
    exact ⟨rfl, rfl, rfl⟩
  | body st b rc hbody hbuf hlink hmark htext hsize =>
    simp only [hbody, hbuf, hlink, Bool.not_true]
    exact outputFiltered_body hctx hflag hmark htext hsize

/-- **Ends of responses.** What fails first in the handler, in the filters of the module and behind
them decides what is forwarded of a response of the echo or the thread module: nothing, its headers
alone, or all its text, the footer and one end mark at its end. -/
theorem respond_endsAs (lcf : NgxHttpNdgFilterLocConf) (o : FilterOutcomes) (hs : List NgxTableElt)
    {c : Content} (hc : c.Allocated) :
    EndsAs lcf o c.text (c.respond lcf o hs) (c.ending lcf o) := by
  unfold Content.respond Content.ending
  cases hresponds : c.responds with
  | false =>
    obtain ⟨hdeclared, st, rc, hfinish, hrc⟩ := finish_of_not_responds hresponds ngxError
    simp only [hdeclared, hfinish, Bool.not_false, Bool.true_or, if_true]
    exact ⟨rfl, rfl, rc, rfl, hrc⟩
  | true =>
    obtain ⟨hpasses, r, hcall⟩ | ⟨hpasses, r, hcall, hctx, hflag, hlength⟩ :=
      headerFilter_fresh lcf o hs c.text
    · obtain ⟨hdeclared, hfinished⟩ := finish_of_responds hc hresponds ngxError
      simp only [hdeclared, hcall, hpasses, Bool.not_true, Bool.not_false, Bool.false_or, if_true]
      -- no body follows an error, so the handler ends with that of the filter
      generalize c.finish ngxError = finish at hfinished
      cases hfinished with
      | header st hbody => exact ⟨rfl, rfl, ngxError, rfl, by decide⟩
      | error st hbody hbuf => exact absurd hbody (by simp [bodyFollows])
      | null st hbody hbuf hlink => exact absurd hbody (by simp [bodyFollows])
      | body st b rc hbody hbuf hlink hmark htext hsize =>
        exact absurd hbody (by simp [bodyFollows])
    · obtain ⟨hdeclared, hfinished⟩ := finish_of_responds hc hresponds o.nextHeader
      simp only [hdeclared, hcall, hpasses, Bool.not_true, Bool.or_self, hlength]
      exact outputFiltered_endsAs hfinished hctx hflag

/-- The echo location with headers and a footer, where nothing fails. -/
theorem respond_endsAs_hello :
    helloContent.ending ⟨some [⟨⟨6, 300⟩, ⟨6, 310⟩⟩], ⟨7, 8⟩⟩
      ⟨⟨true, fun _ => true⟩, .ok, ngxOk, ngxOk⟩ = .whole ∧
    EndsAs ⟨some [⟨⟨6, 300⟩, ⟨6, 310⟩⟩], ⟨7, 8⟩⟩ ⟨⟨true, fun _ => true⟩, .ok, ngxOk, ngxOk⟩
      helloContent.text
      (helloContent.respond ⟨some [⟨⟨6, 300⟩, ⟨6, 310⟩⟩], ⟨7, 8⟩⟩
        ⟨⟨true, fun _ => true⟩, .ok, ngxOk, ngxOk⟩ [])
      .whole := by
  have hc : helloContent.Allocated := by
    unfold helloContent Content.Allocated
    decide
  have hends := respond_endsAs ⟨some [⟨⟨6, 300⟩, ⟨6, 310⟩⟩], ⟨7, 8⟩⟩
    ⟨⟨true, fun _ => true⟩, .ok, ngxOk, ngxOk⟩ [] hc
  have hwhole : helloContent.ending ⟨some [⟨⟨6, 300⟩, ⟨6, 310⟩⟩], ⟨7, 8⟩⟩
      ⟨⟨true, fun _ => true⟩, .ok, ngxOk, ngxOk⟩ = .whole := rfl
  rw [hwhole] at hends
  exact ⟨hwhole, hends⟩

end NgxNdg
