import Rfrp.Common.Protocol
import Rfrp.Lib.HashMap

/-!
# Limits on requests

`crates/rfrp-common/src/util/ratelimit.rs`: the requests of an address are counted in a window that
starts with its first request.
-/

namespace Rfrp

/-- `RateLimiter`. -/
structure RateLimiter where
  inner : HashMap IpAddr (ℕ × Instant)
  max : ℕ
  window : ℕ

namespace RateLimiter

/-- `MAX_ENTRIES`. -/
def maxEntries : ℕ := 4096

/-- `RateLimiter::new`. -/
def new (max window : ℕ) : RateLimiter := ⟨∅, max, window⟩

/-- `RateLimiter::allow`: whether the request is allowed. -/
def allow (l : RateLimiter) (ip : IpAddr) (now : Instant) : RateLimiter × Bool :=
  match l.inner.get ip with
  | some (count, start) =>
    if now - start ≥ l.window then
      ({ l with inner := l.inner.insert ip (1, now) }, true)
    else if count < l.max then
      ({ l with inner := l.inner.insert ip (count + 1, start) }, true)
    else
      (l, false)
  | none =>
    let m := if l.inner.len ≥ maxEntries then
        l.inner.retain fun _ e => now - e.2 < l.window
      else
        l.inner
    ({ l with inner := m.insert ip (1, now) }, true)

end RateLimiter

end Rfrp
