import NgxNdg.Echo.Handler
import NgxNdg.Filter.Body
import NgxNdg.Thread.Model

/-!
# The end mark over subrequests

nginx joins the outputs of a request and its subrequests into one response, whose end is the
buffer with `last_buf`. The content handlers set the mark wherever they run, so the response
has its mark at the end, and nowhere else, exactly when no subrequest has output.

## Main definitions

- `Content`: one run of a content handler, and what it gives to the output filter
- `RequestTree`: a request with its subrequests
- `EndMarked`: the one end mark of a response is on the last buffer of the main request
-/

namespace NgxNdg

open FirstMark

/-- Everything one pass of a request through the thread module depends on: the outcomes of
its request handler and of its event handler, and the states each of the handlers finds. -/
structure ThreadRun where
  handler : ThreadHandlerOutcomes
  event : ThreadEventOutcomes
  id : ℕ
  r : ℕ
  isMain : Bool
  handlerPool : NgxPool
  taskPool : NgxPool
  handlerMain : MainRefs
  eventMain : MainRefs
  headersOut : HeadersOut

/-- The chain that the event handler gives to the output filter, `[]` when it is not reached. -/
def ThreadRun.output (run : ThreadRun) : NgxChain :=
  match ngxHttpNdgThreadHandler run.handler run.id run.r run.isMain run.handlerPool
      run.handlerMain with
  | (_, _, some task, _) =>
    match ngxHttpNdgThreadEventHandler run.event (task.run run.taskPool) run.eventMain
        run.headersOut with
    | (_, _, some (out, _)) => out
    | (_, _, none) => []
  | (_, _, none, _) => []

/-- The outcomes with which the thread module has output. -/
def ThreadRun.emits (run : ThreadRun) : Bool :=
  run.handler.pool && run.handler.task && run.handler.buf && run.handler.post &&
    run.event.sendsBody && run.event.link

/-- How the content of a request is generated. -/
inductive Content where
  | echo (msg : NgxStr) (r : EchoRequest) (o : EchoOutcomes) (pool : NgxPool) (h : HeadersOut)
  | thread (run : ThreadRun)

/-- The chain given to the output filter. -/
def Content.output : Content → NgxChain
  | .echo msg r o pool h =>
    match ngxHttpNdgEchoHandler msg r o pool h with
    | (_, _, some (out, _)) => out
    | (_, _, none) => []
  | .thread run => run.output

/-- The inputs and the outcomes with which a content has output: the method is `GET`, the
header is sent with a body to follow, and nothing fails to be allocated. -/
def Content.emits : Content → Bool
  | .echo _ r o _ _ =>
    r.methodGet && (o.discardBody == ngxOk) && bodyFollows o.sendHeader r.headerOnly && o.buf &&
      o.link
  | .thread run => run.emits

theorem ThreadRun.output_cases (run : ThreadRun) :
    (run.emits ∧ ∃ b, run.output = [b] ∧ b.lastBuf = true) ∨ (¬ run.emits ∧ run.output = []) := by
  obtain ⟨⟨pending, hpool, htask, hbuf, hpost⟩, event, id, r, isMain, pool, pool', main, main',
    h⟩ := run
  cases hpool
  · exact .inr ⟨Bool.false_ne_true, rfl⟩
  cases htask
  · exact .inr ⟨Bool.false_ne_true, rfl⟩
  cases hbuf
  · exact .inr ⟨Bool.false_ne_true, rfl⟩
  cases hpost
  · exact .inr ⟨Bool.false_ne_true, rfl⟩
  simp only [ThreadRun.emits, ThreadRun.output, ngxHttpNdgThreadHandler, NgxThreadTask.run,
    ngxHttpNdgThreadTaskHandler, ngxHttpNdgThreadEventHandler]
  cases hs : event.sendsBody <;> cases hl : event.link <;> simp

theorem Content.output_cases (c : Content) :
    (c.emits ∧ ∃ b, c.output = [b] ∧ b.lastBuf = true) ∨ (¬ c.emits ∧ c.output = []) := by
  cases c with
  | thread run => exact run.output_cases
  | echo msg r o pool h =>
    obtain ⟨get, args, headerOnly⟩ := r
    obtain ⟨discardBody, sendHeader, buf, link, output⟩ := o
    simp only [Content.emits, Content.output, ngxHttpNdgEchoHandler]
    cases get
    · exact .inr ⟨Bool.false_ne_true, rfl⟩
    by_cases hdiscard : discardBody = ngxOk
    · cases hbody : bodyFollows sendHeader headerOnly <;> cases buf <;> cases link <;>
        simp [hdiscard]
    · simp [hdiscard]

/-- A request, how its content is generated, and its subrequests. -/
inductive RequestTree where
  | request (content : Content) (subrequests : List RequestTree)

mutual

/-- The contents of a request and of all the requests below it. -/
def RequestTree.contents : RequestTree → List Content
  | .request content subrequests => content :: contentsBelow subrequests

/-- The contents of a list of subrequests and of all the requests below them. -/
def RequestTree.contentsBelow : List RequestTree → List Content
  | [] => []
  | t :: ts => t.contents ++ contentsBelow ts

end

/-- The response has one end mark, and it is on the last buffer of the main request. -/
def EndMarked (subrequests : List NgxChain) (main : NgxChain) : Prop :=
  ∃ pre b, main = pre ++ [b] ∧ b.lastBuf = true ∧
    Unmarked NgxBuf.lastBuf (subrequests.flatten ++ pre)

/-- The mark is where the body filter needs it, so the footer comes behind all the outputs. -/
theorem EndMarked.footer_last {joined : List NgxChain} {main : NgxChain} (h : EndMarked joined main)
    (footer : NgxStr) :
    ∃ body, (footerCalls footer (joined ++ [main])).flatten = body ++ [footerBuf footer] ∧
      Unmarked NgxBuf.lastBuf body ∧
      ∀ st, chainBytes st body = chainBytes st (joined.flatten ++ main) := by
  obtain ⟨pre, b, rfl, hmark, hunmarked⟩ := h
  have hends : EndsMarked (joined ++ [pre ++ [b]]) :=
    ⟨joined.flatten ++ pre, b, by simp, hunmarked, hmark⟩
  obtain ⟨body, hout, hbody, hbytes⟩ := footerCalls_flatten footer hends
  refine ⟨body, hout, hbody, fun st => ?_⟩
  rw [hbytes st, List.flatten_append, List.flatten_singleton]

/-- **The end mark over subrequests.** Whatever the order `joined` in which the outputs of the
subrequests come before the output of the main request, the response is marked at its end only
exactly when the main request has output and no subrequest has. -/
theorem end_marked_iff (content : Content) (subrequests : List RequestTree)
    (joined : List NgxChain)
    (horder : joined.Perm ((RequestTree.contentsBelow subrequests).map Content.output)) :
    EndMarked joined content.output ↔
      content.emits ∧ ∀ c ∈ RequestTree.contentsBelow subrequests, ¬ c.emits := by
  constructor
  · rintro ⟨pre, b, hmain, _, hunmarked⟩
    rw [unmarked_append, unmarked_flatten] at hunmarked
    constructor
    · obtain ⟨hemits, _⟩ | ⟨_, hnil⟩ := content.output_cases
      · exact hemits
      · rw [hmain] at hnil
        exact absurd hnil (by simp)
    · intro c hc hemits
      obtain ⟨_, b', hout, hmark⟩ | ⟨hnot, _⟩ := c.output_cases
      · have hmem : c.output ∈ joined := horder.mem_iff.mpr (List.mem_map_of_mem hc)
        have hfalse := hunmarked.1 _ hmem b' (by simp [hout])
        rw [hmark] at hfalse
        cases hfalse
      · exact hnot hemits
  · rintro ⟨hemits, hsubs⟩
    obtain ⟨_, b, hout, hmark⟩ | ⟨hnot, _⟩ := content.output_cases
    · refine ⟨[], b, hout, hmark, ?_⟩
      rw [List.append_nil, unmarked_flatten]
      intro chain hchain
      obtain ⟨c, hc, rfl⟩ := List.mem_map.mp (horder.mem_iff.mp hchain)
      obtain ⟨hemits', _⟩ | ⟨_, hnil⟩ := c.output_cases
      · exact absurd hemits' (hsubs c hc)
      · rw [hnil]
        exact unmarked_nil
    · exact absurd hemits hnot

/-- A `GET` of an echo location whose message is five bytes long. -/
def helloContent : Content :=
  .echo ⟨5, 0⟩ ⟨true, ⟨0, 0⟩, false⟩ ⟨ngxOk, ngxOk, true, true, ngxOk⟩
    ⟨⟨fun _ => 104, fun _ _ => 0⟩, 16⟩ ⟨0, 0⟩

theorem end_marked_hello : EndMarked [] helloContent.output :=
  (end_marked_iff helloContent [] [] (List.Perm.refl _)).mpr ⟨rfl, fun _ hc => nomatch hc⟩

/-- One echo subrequest of an echo request: the response is marked before its end. -/
theorem end_marked_early_by_subrequest :
    ¬ EndMarked ((RequestTree.contentsBelow [.request helloContent []]).map Content.output)
      helloContent.output := by
  rintro ⟨pre, b, _, _, hunmarked⟩
  have hfirst : ∃ b' ∈ helloContent.output, b'.lastBuf = true :=
    ⟨_, List.mem_cons_self, rfl⟩
  obtain ⟨b', hmem, hmark⟩ := hfirst
  rw [unmarked_append, unmarked_flatten] at hunmarked
  have hfalse := hunmarked.1 helloContent.output (List.mem_cons_self) b' hmem
  rw [hmark] at hfalse
  cases hfalse

end NgxNdg
