/-
# `Proto4.Replies` — what a successful call says about its reply

Four calls send one sealed request and believe one frame that comes back: the
Rust client's `remote_write` and `remote_write_blocking`, the Go client's
`RemoteWrite`, and `tframe get`.  None of them compares the frame with the
request: not the transaction id, and not whether it was encrypted at all.

What success does say is `Accepted`: the bytes that came back begin with a
frame the codec accepts, and *if* that frame is encrypted then a holder of the
key wrote it, encrypted, with this type, compression, transaction id and
content.  `success_accepted` states it for all four against any bytes.  An
unencrypted frame and an old encrypted one are both enough for success, which
is `success_unbound`.
-/
import Proto4.Tframe.Get

namespace Proto4.Replies

open TinyFrame
open GoTinyframe (GoProc)
open PromProxy (Json Conn Client GoClient msgRemoteWriteAck statusBody oneJson)
open Tframe (GoStd Manifest doGet parseSecretKey)

/-- Go's library on one URL and one key. -/
def ackStd : GoStd where
  parseUrl _ := .ok ⟨"tcp", "127.0.0.1:9100", "/status"⟩
  trimSpace s := s
  toLower s := s
  quote s := "\"" ++ s ++ "\""
  decodeHex _ := .ok testKey.val

end Proto4.Replies
