import WarpPlus.Semantics.HostPort

/-! The HTTP proxy of `proxy/pkg/http`: where `handleHTTP` and `embedHandleHTTP`
send a request, and the `customConn` that hands a request on to a user handler.

A request is what `http.ReadRequest` made of it: the URL's host `req.URL.Host`
with its port if it has one, the scheme, and whether the method is CONNECT. The
destination is the host and port `net.SplitHostPort` finds in the URL host, or
else the whole URL host with the default port of the scheme.

`customConn.Read` hands out the serialized request (`req.Write`) on the first
`Read` and reads the connection after that. The connection is modelled as the
bytes the client sent after the request, and a `Read` of it returns what has
arrived, up to the buffer's length.
-/

set_option autoImplicit false

namespace WarpPlus.Proxy.Http

open GoText

/-- The port of a request whose URL host has none. -/
def defaultPort (scheme : List UInt8) (isConnectMethod : Bool) : List UInt8 :=
  if scheme = ascii "https" ∨ isConnectMethod then ascii "443" else ascii "80"

/-- The fields of `statute.ProxyRequest` that `handleHTTP` sets from the URL host. -/
structure ProxyRequest where
  destination : List UInt8
  destHost : List UInt8
  /-- `int32(portInt)`. -/
  destPort : Int
  deriving DecidableEq, Repr

/-- `handleHTTP` with a user handler, up to the request it hands the handler;
`none` is the error of `strconv.Atoi`. -/
def handleHTTP (urlHost scheme : List UInt8) (isConnectMethod : Bool) : Option ProxyRequest :=
  let (host, portStr, targetAddr) := match splitHostPort urlHost with
    | some (host, portStr) => (host, portStr, urlHost)
    | none =>
      let portStr := defaultPort scheme isConnectMethod
      (urlHost, portStr, joinHostPort urlHost portStr)
  match atoi portStr with
  | none => none
  | some portInt => some ⟨targetAddr, host, portInt.bmod (2 ^ 32)⟩

/-- The address `embedHandleHTTP` dials. -/
def embedHandleHTTP (urlHost scheme : List UInt8) (isConnectMethod : Bool) : List UInt8 :=
  let (host, portStr) := match splitHostPort urlHost with
    | some (host, portStr) => (host, portStr)
    | none => (urlHost, defaultPort scheme isConnectMethod)
  joinHostPort host portStr

theorem atoi_defaultPort (scheme : List UInt8) (isConnectMethod : Bool) :
    atoi (defaultPort scheme isConnectMethod) =
      some (if scheme = ascii "https" ∨ isConnectMethod then 443 else 80) := by
  unfold defaultPort
  split_ifs <;> decide

theorem handleHTTP_of_unsplit {urlHost : List UInt8} (unsplit : splitHostPort urlHost = none)
    (scheme : List UInt8) (isConnectMethod : Bool) :
    handleHTTP urlHost scheme isConnectMethod =
        some ⟨joinHostPort urlHost (defaultPort scheme isConnectMethod), urlHost,
          if scheme = ascii "https" ∨ isConnectMethod then 443 else 80⟩ ∧
      embedHandleHTTP urlHost scheme isConnectMethod =
        joinHostPort urlHost (defaultPort scheme isConnectMethod) := by
  refine ⟨?_, by simp [embedHandleHTTP, unsplit]⟩
  simp only [handleHTTP, unsplit, atoi_defaultPort]
  split_ifs <;> rfl

/-- A bracketed IPv6 literal without a port keeps its brackets: the handler gets the
host `[h]` and the destination `[[h]]:port`, and the embedded proxy dials
`[[h]]:port`, while `URL.Hostname` is `h`. -/
theorem handleHTTP_keeps_brackets {h : List UInt8} (colonIn : colon ∈ h) (noClose : closeBracket ∉ h)
    (scheme : List UInt8) (isConnectMethod : Bool) :
    hostname (openBracket :: h ++ [closeBracket]) = h ∧
      handleHTTP (openBracket :: h ++ [closeBracket]) scheme isConnectMethod =
        some ⟨openBracket :: openBracket :: h ++ [closeBracket, closeBracket, colon] ++
            defaultPort scheme isConnectMethod, openBracket :: h ++ [closeBracket],
          if scheme = ascii "https" ∨ isConnectMethod then 443 else 80⟩ ∧
      embedHandleHTTP (openBracket :: h ++ [closeBracket]) scheme isConnectMethod =
        openBracket :: openBracket :: h ++ [closeBracket, closeBracket, colon] ++
          defaultPort scheme isConnectMethod := by
  obtain ⟨handled, dialed⟩ := handleHTTP_of_unsplit (splitHostPort_bracketed colonIn noClose) scheme
    isConnectMethod
  -- the URL host has a colon, so `JoinHostPort` brackets it once more
  have rebracketed : joinHostPort (openBracket :: h ++ [closeBracket]) (defaultPort scheme isConnectMethod) =
      openBracket :: openBracket :: h ++ [closeBracket, closeBracket, colon] ++
        defaultPort scheme isConnectMethod := by
    have inside : colon ∈ openBracket :: h ++ [closeBracket] := by simp [colonIn]
    rw [joinHostPort, if_pos inside]
    simp
  rw [rebracketed] at handled dialed
  exact ⟨hostname_bracketed colonIn, handled, dialed⟩

theorem handleHTTP_keeps_brackets_loopback :
    colon ∈ ascii "::1" ∧ closeBracket ∉ ascii "::1" ∧
      hostname (openBracket :: ascii "::1" ++ [closeBracket]) = ascii "::1" ∧
      handleHTTP (openBracket :: ascii "::1" ++ [closeBracket]) (ascii "http") false =
        some ⟨openBracket :: openBracket :: ascii "::1" ++ [closeBracket, closeBracket, colon] ++
            defaultPort (ascii "http") false, openBracket :: ascii "::1" ++ [closeBracket],
          if ascii "http" = ascii "https" ∨ false then 443 else 80⟩ ∧
      embedHandleHTTP (openBracket :: ascii "::1" ++ [closeBracket]) (ascii "http") false =
        openBracket :: openBracket :: ascii "::1" ++ [closeBracket, closeBracket, colon] ++
          defaultPort (ascii "http") false :=
  ⟨by decide, by decide, handleHTTP_keeps_brackets (by decide) (by decide) (ascii "http") false⟩

/-! ### The connection handed to a user handler -/

/-- `customConn`: the bytes `req.Write` serializes, `initialData` once `once` has
run, and the bytes the client sent after the request. -/
structure CustomConn where
  req : List UInt8
  initialData : Option (List UInt8)
  conn : List UInt8

/-- `customConn.Read(p)`: the bytes `p[:n]` it returns, and the connection after. -/
def CustomConn.read (c : CustomConn) (p : List UInt8) : List UInt8 × CustomConn :=
  -- `once` sets `initialData` to the serialized request on the first call
  let initialData := c.initialData.getD c.req
  if 0 < initialData.length then
    -- `copy(p, initialData)` and `n = len(p)`: `p[:n]` is the whole buffer
    (initialData.take p.length ++ p.drop initialData.length, { c with initialData := some [] })
  else
    -- `c.Conn.Read(p)`
    (c.conn.take p.length, { c with initialData := some [], conn := c.conn.drop p.length })

/-- What `Read` calls with the buffers `ps`, in turn, return. -/
def CustomConn.readAll : CustomConn → List (List UInt8) → List UInt8
  | _, [] => []
  | c, p :: ps => (c.read p).1 ++ (c.read p).2.readAll ps

theorem readAll_after_request (req conn : List UInt8) (ps : List (List UInt8)) :
    CustomConn.readAll ⟨req, some [], conn⟩ ps = conn.take (ps.map List.length).sum := by
  -- induction on the reads; each takes the front of what is left
  induction ps generalizing conn with
  | nil => rfl
  | cons p ps ih =>
    simp only [CustomConn.readAll, CustomConn.read, Option.getD_some, List.length_nil, Nat.lt_irrefl,
      if_false, ih, List.map_cons, List.sum_cons]
    rw [List.take_add]

/-- A first `Read` into a buffer shorter than the serialized request returns only
the buffer's length of it and drops the rest: what the reads return is never the
request followed by the bytes after it. -/
theorem readAll_truncates_request {req rest p : List UInt8} (ps : List (List UInt8))
    (short : p.length < req.length) (enough : rest.length ≤ (ps.map List.length).sum) :
    CustomConn.readAll ⟨req, none, rest⟩ (p :: ps) = req.take p.length ++ rest ∧
      CustomConn.readAll ⟨req, none, rest⟩ (p :: ps) ≠ req ++ rest := by
  have first : (CustomConn.read ⟨req, none, rest⟩ p) = (req.take p.length, ⟨req, some [], rest⟩) := by
    have handed : 0 < req.length := by omega
    simp [CustomConn.read, handed, List.drop_eq_nil_of_le (Nat.le_of_lt short)]
  have whole : CustomConn.readAll ⟨req, none, rest⟩ (p :: ps) = req.take p.length ++ rest := by
    rw [CustomConn.readAll, first, readAll_after_request, List.take_of_length_le enough]
  refine ⟨whole, fun same => ?_⟩
  have lengths := congrArg List.length (whole.symm.trans same)
  simp only [List.length_append, List.length_take] at lengths
  omega

theorem readAll_truncates_request_oneByte :
    ([0] : List UInt8).length < (ascii "GET / HTTP/1.1").length ∧
      ([2] : List UInt8).length ≤ ([[0, 0]].map List.length).sum ∧
      CustomConn.readAll ⟨ascii "GET / HTTP/1.1", none, [2]⟩ ([0] :: [[0, 0]]) =
        (ascii "GET / HTTP/1.1").take ([0] : List UInt8).length ++ [2] ∧
      CustomConn.readAll ⟨ascii "GET / HTTP/1.1", none, [2]⟩ ([0] :: [[0, 0]]) ≠ ascii "GET / HTTP/1.1" ++ [2] :=
  ⟨by decide, by decide, readAll_truncates_request [[0, 0]] (by decide) (by decide)⟩

end WarpPlus.Proxy.Http
