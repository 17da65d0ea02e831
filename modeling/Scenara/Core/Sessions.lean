import Mathlib.Data.List.SplitBy

/-!
# Sessions of a stream

A list split wherever two neighbours are not related falls into sessions (`List.splitBy`). Kept
online, a new element either goes on with the last session or starts one.
-/

namespace Scenara.Core

variable {α : Type*} {r : α → α → Bool} {p q : α → Bool} {f : α → α} {l : List α} {a x : α}

end Scenara.Core
