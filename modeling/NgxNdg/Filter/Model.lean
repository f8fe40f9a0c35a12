import NgxNdg.Core.Buf

/-!
# The ndg filter module

`ngx_http_ndg_header_filter` adds the configured headers and announces the footer;
`ngx_http_ndg_body_filter` appends the footer at the end of the body. They communicate
through the flag of the module context: 0 - init; 1 - header ok; 2 - body ok.

An allocation is given by its outcome, `false` for `NULL`. A filter either returns a code
of its own or the result of the next filter of the chain; the request and the chain it
returns are those the next filter is called with.

## Main definitions

- `ngxHttpNdgHeaderFilter`, `ngxHttpNdgBodyFilter`: the two filters, one call each
- `headerPass`, `headerPasses`: header filter calls made before the body
- `bodyFilterCalls`: successive body filter calls and the chains they forward
-/

namespace NgxNdg

/-- `ngx_keyval_t`. -/
structure NgxKeyval where
  key : NgxStr
  value : NgxStr
  deriving DecidableEq, Repr

/-- `ngx_table_elt_t`. -/
structure NgxTableElt where
  hash : ℕ
  key : NgxStr
  value : NgxStr
  deriving DecidableEq, Repr

/-- `ngx_http_ndg_filter_loc_conf_t`: `headers` is `none` for a `NULL` array. -/
structure NgxHttpNdgFilterLocConf where
  headers : Option (List NgxKeyval)
  footer : NgxStr
  deriving DecidableEq, Repr

/-- `ngx_http_ndg_filter_ctx_t`. -/
structure NgxHttpNdgFilterCtx where
  flag : ℤ
  deriving DecidableEq, Repr

/-- The part of the request the filters use: their module context, `headers_out.headers`
and `headers_out.content_length_n`. -/
structure FilterRequest where
  ctx : Option NgxHttpNdgFilterCtx
  headers : List NgxTableElt
  contentLengthN : ℤ
  deriving DecidableEq, Repr

/-- How a filter call ends: by calling the next filter, or with a code of its own. -/
inductive FilterReturn where
  | next
  | code (rc : ℤ)
  deriving DecidableEq, Repr

/-- The module context, created zeroed when there is none yet. -/
def getCtx (alloc : Bool) (r : FilterRequest) : Option (FilterRequest × NgxHttpNdgFilterCtx) :=
  match r.ctx with
  | some ctx => some (r, ctx)
  | none => if alloc then some ({ r with ctx := some ⟨0⟩ }, ⟨0⟩) else none

/-- The allocations of the header filter: the context, and the `i`-th `ngx_list_push`. -/
structure HeaderFilterAllocs where
  ctx : Bool
  push : ℕ → Bool

/-- The `for` loop over the configured headers, from index `i` on. The flag of the result
is `false` when a push failed; the headers pushed before it stay in the list. -/
def pushHeaders (push : ℕ → Bool) (i : ℕ) :
    List NgxKeyval → List NgxTableElt → List NgxTableElt × Bool
  | [], hs => (hs, true)
  | kv :: data, hs =>
    if push i then pushHeaders push (i + 1) data (hs ++ [⟨1, kv.key, kv.value⟩])
    else (hs, false)

/-- The first half of the header filter: the configured headers, and flag 1 after them. -/
def addHeaders (lcf : NgxHttpNdgFilterLocConf) (push : ℕ → Bool) (r : FilterRequest)
    (ctx : NgxHttpNdgFilterCtx) : FilterRequest × Option NgxHttpNdgFilterCtx :=
  match lcf.headers with
  | none => (r, some ctx)
  | some data =>
    match pushHeaders push 0 data r.headers with
    | (hs, true) => ({ r with headers := hs, ctx := some ⟨1⟩ }, some ⟨1⟩)
    | (hs, false) => ({ r with headers := hs }, none)

/-- The second half: a footer is announced only over a positive length. -/
def addFooterLen (lcf : NgxHttpNdgFilterLocConf) (r : FilterRequest) : FilterRequest :=
  if lcf.footer.len ≠ 0 ∧ r.contentLengthN > 0 then
    { r with contentLengthN := r.contentLengthN + lcf.footer.len, ctx := some ⟨1⟩ }
  else r

def ngxHttpNdgHeaderFilter (lcf : NgxHttpNdgFilterLocConf) (al : HeaderFilterAllocs)
    (r : FilterRequest) : FilterRequest × FilterReturn :=
  match getCtx al.ctx r with
  | none => (r, .code ngxError)
  | some (r, ctx) =>
    if ctx.flag > 0 then (r, .next)
    else
      match addHeaders lcf al.push r ctx with
      | (r, none) => (r, .code ngxError)
      | (r, some _) => (addFooterLen lcf r, .next)

/-- The allocations of the body filter: the context, the footer buffer, its chain link. -/
structure BodyFilterAllocs where
  ctx : Bool
  buf : Bool
  link : Bool
  deriving DecidableEq, Repr

/-- The buffer that holds the footer. -/
def footerBuf (footer : NgxStr) : NgxBuf :=
  { ngxCallocBuf with
    pos := footer.data
    last := footer.data + footer.len
    memory := true
    lastBuf := true
    lastInChain := true }

/-- One call of the body filter: the request, the chain behind `in`, and the return.
`none` stands for the `NULL` dereference when the chain link is not allocated. -/
def ngxHttpNdgBodyFilter (lcf : NgxHttpNdgFilterLocConf) (al : BodyFilterAllocs)
    (r : FilterRequest) (chain : NgxChain) : Option (FilterRequest × NgxChain × FilterReturn) :=
  if chain = [] then some (r, chain, .next)
  else if lcf.footer.len = 0 then some (r, chain, .next)
  else
    match getCtx al.ctx r with
    | none => some (r, chain, .code ngxError)
    | some (r, ctx) =>
      if ctx.flag ≠ 1 then some (r, chain, .next)
      else
        -- `p` is the first link with `last_buf`, `rest` the links behind it
        match chain.dropWhile fun b => !b.lastBuf with
        | [] => some (r, chain, .next)
        | p :: rest =>
          let r := { r with ctx := some ⟨2⟩ }
          if !al.buf then some (r, chain, .code ngxHttpInternalServerError)
          else
            let b := footerBuf lcf.footer
            let before := chain.takeWhile fun b => !b.lastBuf
            if ngxBufSize p = 0 then some (r, before ++ b :: rest, .next)
            else if !al.link then none
            -- `p->next = out` drops the links behind `p`
            else some (r, before ++ [{ p with lastBuf := false, lastInChain := false }, b], .next)

/-- All allocations succeed. -/
def HeaderFilterAllocs.ok : HeaderFilterAllocs := ⟨true, fun _ => true⟩

@[inherit_doc HeaderFilterAllocs.ok]
def BodyFilterAllocs.ok : BodyFilterAllocs := ⟨true, true, true⟩

/-- A request no filter call has been made on. -/
def FilterRequest.fresh (headers : List NgxTableElt) : FilterRequest := ⟨none, headers, -1⟩

/-- A header filter call made after `content_length_n` was set to `d`. -/
def headerPass (lcf : NgxHttpNdgFilterLocConf) (r : FilterRequest) (d : ℤ) : FilterRequest :=
  (ngxHttpNdgHeaderFilter lcf .ok { r with contentLengthN := d }).1

/-- Header filter calls with the declared lengths `ds`, one after the other. -/
def headerPasses (lcf : NgxHttpNdgFilterLocConf) (r : FilterRequest) (ds : List ℤ) :
    FilterRequest :=
  ds.foldl (headerPass lcf) r

/-- Body filter calls one after the other: the request behind the last, and the chains
handed to the next body filter. -/
def bodyFilterCalls (lcf : NgxHttpNdgFilterLocConf) :
    FilterRequest → List (BodyFilterAllocs × NgxChain) → Option (FilterRequest × List NgxChain)
  | r, [] => some (r, [])
  | r, (al, chain) :: calls => do
    let (r, chain, ret) ← ngxHttpNdgBodyFilter lcf al r chain
    let (r, out) ← bodyFilterCalls lcf r calls
    match ret with
    | .next => return (r, chain :: out)
    | .code _ => return (r, out)

/-- Body filter calls whose allocations all succeed. -/
def bodyFilterCallsOk (lcf : NgxHttpNdgFilterLocConf) (r : FilterRequest) (calls : List NgxChain) :
    Option (FilterRequest × List NgxChain) :=
  bodyFilterCalls lcf r (calls.map fun c => (.ok, c))

end NgxNdg
