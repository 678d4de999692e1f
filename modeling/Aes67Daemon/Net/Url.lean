import Aes67Daemon.Lib.Text

/-!
# URLs

`parse_url` of `utils.cpp`, applied to the decoded text.  Positions are counted
as the source counts them: the separator after the scheme is the first character
that is a colon or a slash, and three characters are skipped from there.
-/
namespace Aes67Daemon

open Text

/-- What `parse_url` returns. -/
structure ParsedUrl where
  ok : Bool := false
  protocol : Text := []
  host : Text := []
  port : Text := []
  path : Text := []
  deriving DecidableEq

/-- `parse_url` after `decode_url`.  `none` is the exception `substr` throws when
fewer than three characters follow the scheme. -/
def parseUrl (url : Text) : Option ParsedUrl :=
  match url.findIdx? (fun c => c = ':' || c = '/') with
  | none => some {}
  | some p =>
    if url.length < p + 3 then none
    else
      let protocol := url.take p
      let rest := url.drop (p + 3)
      let pathPos := rest.findIdx? (· = '/')
      match rest.findIdx? (· = ':') with
      | some q =>
        let host := rest.take q
        match pathPos with
        | some r =>
          -- a slash before the colon makes the length of the port wrap around
          let port := if r < q then rest.drop (q + 1) else (rest.drop (q + 1)).take (r - q - 1)
          some { ok := host != [], protocol, host, port, path := rest.drop r }
        | none => some { ok := host != [], protocol, host, port := rest.drop (q + 1), path := ['/'] }
      | none =>
        match pathPos with
        | some r =>
          let host := rest.take r
          some { ok := host != [], protocol, host, path := rest.drop r }
        | none => some { ok := rest != [], protocol, host := rest, path := ['/'] }

end Aes67Daemon
