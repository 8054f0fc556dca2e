import Bpfstream.Go.Json

/-!
# `logfmt.Unmarshal` of `github.com/kr/logfmt`

The decoder is a `goto` state machine over the bytes of the record (`gotoScanner`): `garbage`
between pairs, `key`, `equal` just after `=`, `ivalue` inside a bare value and `qvalue` inside a
double-quoted one.  A key or a bare value is a run of bytes above `' '` other than `"` and `=`.
Each complete pair is handed to the handler at once, and the scan goes on after an error: the
first error, from the handler or from the scanner itself, is the result.  A panic in the handler
ends everything.

A single quote is an ordinary byte here: `path='a b'` is the pair `path` / `'a`, then the key
`b'` without a value.
-/

namespace Bpfstream

/-- A byte that may stand in a key or a bare value: `c > ' ' && c != '"' && c != '='`. -/
def identByte (c : UInt8) : Bool := 32 < c.toNat && c ≠ 34 && c ≠ 61

/-- What the scanner produces, in order: a `HandleLogfmt(key, val)` call or an error of its own.
A key without a value is handed on with an empty (nil) value. -/
inductive LogfmtItem where
  | pair (key val : Bytes)
  | err (e : GoError)
deriving DecidableEq, Repr

/-- The labels of `gotoScanner`, with the bytes of the key and of the value read so far. -/
inductive LogfmtState where
  | garbage
  | key (k : Bytes)
  | equal (k : Bytes)
  | ivalue (k v : Bytes)
  /-- `v` holds the raw bytes after the opening quote; `esc` records a backslash. -/
  | qvalue (k v : Bytes) (esc : Bool)
deriving DecidableEq, Repr

/-- `logfmt.ErrUnterminatedString`. -/
def errUnterminatedString : GoError := .lib "logfmt: unterminated string"

/-- `unquoteBytes` on the body of a quoted value that held a backslash: the escapes of
`encoding/json` decoded; a quote or a control byte, or an unknown escape, fails.  Surrogate
pairs and the replacement of invalid UTF-8 by U+FFFD are not modelled. -/
def unquoteBody : Bytes → Option Bytes
  | [] => some []
  | 92 :: e :: rest =>
    if e = 117 then
      match rest with
      | h1 :: h2 :: h3 :: h4 :: rest' =>
        match hex4 h1 h2 h3 h4 with
        | some cp => (unquoteBody rest').map (utf8Encode cp ++ ·)
        | none => none
      | _ => none
    else if e = 39 then (unquoteBody rest).map (39 :: ·)
    else match escapeByte e with
      | some b => (unquoteBody rest).map (b :: ·)
      | none => none
  | [92] => none
  | c :: rest => if c = 34 ∨ c < 32 then none else (unquoteBody rest).map (c :: ·)

/-- `gotoScanner` from state `st` on the rest of the record. -/
def scanLogfmt : LogfmtState → Bytes → List LogfmtItem
  | .garbage, [] => []
  | .garbage, c :: rest =>
    if identByte c then scanLogfmt (.key [c]) rest else scanLogfmt .garbage rest
  | .key k, [] => [.pair k []]
  | .key k, c :: rest =>
    if identByte c then scanLogfmt (.key (k ++ [c])) rest
    else if c = 61 then scanLogfmt (.equal k) rest
    else .pair k [] :: scanLogfmt .garbage rest
  | .equal k, [] => [.pair k []]
  | .equal k, c :: rest =>
    if identByte c then scanLogfmt (.ivalue k [c]) rest
    else if c = 34 then scanLogfmt (.qvalue k [] false) rest
    else .pair k [] :: scanLogfmt .garbage rest
  | .ivalue k v, [] => [.pair k v]
  | .ivalue k v, c :: rest =>
    if identByte c then scanLogfmt (.ivalue k (v ++ [c])) rest
    else .pair k v :: scanLogfmt .garbage rest
  | .qvalue _ _ _, [] => [.err errUnterminatedString]
  | .qvalue _ _ _, [92] => [.err errUnterminatedString]
  | .qvalue k v _, 92 :: e :: rest => scanLogfmt (.qvalue k (v ++ [92, e]) true) rest
  | .qvalue k v esc, c :: rest =>
    if c = 34 then
      if esc then
        match unquoteBody v with
        | some u => .pair k u :: scanLogfmt .garbage rest
        | none => .err (.lib "logfmt: error unquoting bytes") :: scanLogfmt .garbage rest
      else .pair k v :: scanLogfmt .garbage rest
    else scanLogfmt (.qvalue k (v ++ [c]) esc) rest

/-- The handler calls of `Unmarshal`, from `s`, with `err` the first error so far. -/
def runLogfmt (handle : σ → Bytes → Bytes → Except Panic (σ × Option GoError)) :
    List LogfmtItem → σ → Option GoError → Except Panic (σ × Option GoError)
  | [], s, err => .ok (s, err)
  | .pair k v :: rest, s, err =>
    match handle s k v with
    | .ok (s', e) => runLogfmt handle rest s' (err <|> e)
    | .error p => .error p
  | .err e :: rest, s, err => runLogfmt handle rest s (err <|> some e)

/-- `logfmt.Unmarshal(data, v)` for a `v` that implements `logfmt.Handler`. -/
def logfmtUnmarshal (handle : σ → Bytes → Bytes → Except Panic (σ × Option GoError))
    (data : Bytes) (s : σ) : Except Panic (σ × Option GoError) :=
  runLogfmt handle (scanLogfmt .garbage data) s none

end Bpfstream
