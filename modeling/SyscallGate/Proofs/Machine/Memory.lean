/-
# A call in memory

A caller that passes its registers in memory gets them back there: what lies there
after the call are the bytes of the registers that routing left, and before it those
of the registers that were routed. As memory and registers are the same thing written
in two ways, nothing is added on the way in or out: the flags, which routing does not
take back, are not touched in memory, and the word that is returned is the one that
lies in the first eight bytes, read with a sign.

Key theorems: `Image.drop_rflags`, `Image.toInt_returned`,
`Machine.routeImage_run`, `Machine.routed_in_memory`.
-/
import SyscallGate.Proofs.Outcome
import SyscallGate.Proofs.Machine.TakenBack

namespace SyscallGate

namespace Image

theorem drop_rflags (regs : Registers) : (encode regs).bytes.drop 72 = littleEndian 8 regs.rflags.toNat := by
  have hlength : ((encode regs).bytes.drop 72).length = 8 := by rw [List.length_drop, (encode regs).length_eq]
  rw [← List.take_of_length_le (Nat.le_of_eq hlength)]
  exact piece_encode regs .rflags

/-- The first eight bytes, with a sign, are the word that is returned. -/
theorem toInt_returned (regs : Registers) :
    regs.returned.toInt64.toInt = (ofLittleEndian ((encode regs).bytes.take 8) : Int).bmod (2 ^ 64) := by
  have hfirst : (encode regs).bytes.take 8 = littleEndian 8 regs.rax.toNat := piece_encode regs .rax
  have hlt : regs.rax.toNat < 2 ^ 64 := regs.rax.toNat_lt
  rw [hfirst, ofLittleEndian_word, Registers.returned, toInt_toInt64, Int.bmod_def]
  omega

end Image

namespace Machine

theorem routeImage_run {server : Server} {image : Image} {m left : Machine} {way : Route} {back : Registers}
    (h : (routeStaged server image.decode).run.run m = (.ok (way, back), left)) (verbose : Bool) :
    (routeImage verbose server (some image)).run.run m =
      (.ok (back.returned.toInt64, some (Image.encode back)), left) :=
  run_bind_ok h

/-- **A call in memory is the call of the registers that lie there.** A register set
lies in memory as its ten words in order, the eight bytes of each from the lowest on.
It is read back as it was, and so are eighty bytes that were read as a set and written
back. Whoever calls with memory, whatever lies there, from any machine and with
whoever serves the call, finds there the set that routing makes of the one that lay
there, its last eight bytes as they were, and gets its first eight bytes with a
sign; the machine is left as routing leaves it. -/
theorem routed_in_memory :
    (∀ regs : Registers,
      (Image.encode regs).bytes =
        [regs.rax, regs.rdi, regs.rsi, regs.rdx, regs.r10, regs.r8, regs.r9, regs.rcx, regs.r11, regs.rflags].flatMap
          (fun word => littleEndian 8 word.toNat) ∧
      (∀ (r : Register) (i : Fin 8),
        (Image.encode regs).bytes[8 * r.index + i]? = some (UInt8.ofNat ((regs.get r).toNat / 256 ^ i.val))) ∧
      (Image.encode regs).decode = regs) ∧
    (∀ image : Image, Image.encode image.decode = image) ∧
    ∀ (verbose : Bool) (server : Server) (m : Machine) (image : Image), ∃ way back ret left,
      (routeStaged server image.decode).run.run m = (.ok (way, back), left) ∧
      (routeImage verbose server (some image)).run.run m = (.ok (ret, some (Image.encode back)), left) ∧
      (Image.encode back).bytes.drop 72 = image.bytes.drop 72 ∧
      ret.toInt = (ofLittleEndian ((Image.encode back).bytes.take 8) : Int).bmod (2 ^ 64) := by
  refine ⟨fun regs => ⟨rfl, fun r i => Image.getElem?_encode regs r i.isLt, Image.decode_encode regs⟩,
    Image.encode_decode, fun verbose server m image => ?_⟩
  have hroute : (routeStaged server image.decode).run.run m =
      (.ok (((gate server Window.ofRoute image.decode).run m).1.1.route,
        ((gate server Window.ofRoute image.decode).run m).1.2), ((gate server Window.ofRoute image.decode).run m).2) := by
    rw [routeStaged_run]
    rfl
  have hflags : ((gate server Window.ofRoute image.decode).run m).1.2.rflags = image.decode.rflags :=
    rflags_takeBack_ofRoute _ _ _
  refine ⟨_, _, _, _, hroute, routeImage_run hroute verbose, ?_, Image.toInt_returned _⟩
  rw [Image.drop_rflags, hflags, ← Image.drop_rflags, Image.encode_decode]

end Machine
end SyscallGate
