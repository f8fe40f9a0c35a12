import NgxNdg.Core.Buf

/-!
# The ndg subrequest module

The access handler of a location with a `ndg_subrequest` uri starts a subrequest in memory and
leaves; the post handler, which nginx calls when a subrequest ends, saves the subrequest in the
context of its parent and lets the phases of the parent run again. The access handler then
takes its decision from the saved subrequest.

A subrequest is known by its number among the subrequests its parent has started. The status
and the output chain it ends with, and the code its end is reported with, are free: the uri may
name any location.

## Main definitions

- `ngxHttpNdgSubrequestHandler`, `ngxHttpNdgSubrequestPostHandler`
- `accessStep`: one client request and its subrequests
-/

namespace NgxNdg

/-- What the module reads of the `ngx_http_request_t` of a subrequest. A link of its output
chain that holds no buffer is `none`. -/
structure Subrequest where
  uri : NgxStr
  args : NgxStr
  status : ℤ
  out : List (Option NgxBuf)
  deriving DecidableEq

/-- `ngx_http_ndg_subrequest_ctx_t`; the pointer `sr` is `none` for `NULL`. -/
structure NgxHttpNdgSubrequestCtx where
  sr : Option ℕ
  deriving DecidableEq

/-- The functions `write_event_handler` can be. -/
inductive WriteEventHandler where
  | requestEmpty
  | coreRunPhases
  deriving DecidableEq

/-- A call of the post handler: the uri and the status of the subrequest, and the code. -/
structure Completion where
  uri : NgxStr
  status : ℤ
  rc : ℤ
  deriving DecidableEq

/-- A client request with the subrequests it has started. `calls` counts the calls of
`ngx_http_subrequest`, `completions` records the calls of the post handler, and `logged` the
strings the access handler has logged. -/
structure AccessRequest where
  args : NgxStr
  ctx : Option NgxHttpNdgSubrequestCtx
  writeEventHandler : WriteEventHandler
  subrequests : List Subrequest
  calls : ℕ
  completions : List Completion
  logged : List NgxStr
  deriving DecidableEq

/-- The access handler, with the success of `ngx_pcalloc` and the result of
`ngx_http_subrequest`: the request and the return code, `none` for the dereference of `NULL`. -/
def ngxHttpNdgSubrequestHandler (uri : NgxStr) (pcalloc : Bool) (subrequest : ℤ)
    (r : AccessRequest) : Option (AccessRequest × ℤ) :=
  if uri.len = 0 then some (r, ngxDeclined)
  else
    match r.ctx with
    | none =>
      if !pcalloc then some (r, ngxError)
      else
        let r := { r with calls := r.calls + 1 }
        if subrequest ≠ ngxOk then some (r, ngxError)
        else some ({ r with subrequests := r.subrequests ++ [⟨uri, r.args, 0, []⟩] }, ngxDone)
    | some ctx =>
      match ctx.sr.bind fun i => r.subrequests[i]? with
      | none => none
      | some sr =>
        match sr.out with
        | some buf :: _ =>
          let str : NgxStr := ⟨(ngxBufSize buf).toNat, buf.pos⟩
          some ({ r with logged := str :: r.logged },
            if sr.status = ngxHttpOk then ngxOk else ngxHttpForbidden)
        -- `sr->out` is `NULL`, or its link has no buffer
        | [] | none :: _ => none

/-- The post handler of the subrequest `r` of `pr`. It reads neither its data nor `_rc`. -/
def ngxHttpNdgSubrequestPostHandler (r : ℕ) (_rc : ℤ) (pcalloc : Bool) (pr : AccessRequest) :
    AccessRequest × ℤ :=
  let pr := { pr with writeEventHandler := .coreRunPhases }
  match pr.ctx with
  | none => if !pcalloc then (pr, ngxError) else ({ pr with ctx := some ⟨some r⟩ }, ngxOk)
  | some _ => ({ pr with ctx := some ⟨some r⟩ }, ngxOk)

inductive AccessEvent where
  /-- the phase engine runs the access handler -/
  | handler (pcalloc : Bool) (subrequest : ℤ)
  /-- the subrequest `i` ends and its post handler is called with `rc` -/
  | finish (i : ℕ) (status : ℤ) (out : List (Option NgxBuf)) (rc : ℤ) (pcalloc : Bool)

/-- One step. The access handler may run at any time, and a started subrequest may end at any
time and in any way. -/
def accessStep (uri : NgxStr) (r : AccessRequest) : AccessEvent → Option AccessRequest
  | .handler pcalloc subrequest =>
    (ngxHttpNdgSubrequestHandler uri pcalloc subrequest r).map Prod.fst
  | .finish i status out rc pcalloc =>
    match r.subrequests[i]? with
    | none => none
    | some sr =>
      let r := { r with
        subrequests := r.subrequests.set i { sr with status := status, out := out }
        completions := ⟨sr.uri, status, rc⟩ :: r.completions }
      some (ngxHttpNdgSubrequestPostHandler i rc pcalloc r).1

/-- The client request before its first access phase. -/
def AccessRequest.init (args : NgxStr) : AccessRequest where
  args := args
  ctx := none
  writeEventHandler := .requestEmpty
  subrequests := []
  calls := 0
  completions := []
  logged := []

end NgxNdg
