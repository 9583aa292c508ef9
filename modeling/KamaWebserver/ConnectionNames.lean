import KamaWebserver.TcpServer

set_option autoImplicit false

namespace KamaWebserver

theorem repr_injective {one two : Nat} (same : one.repr = two.repr) : one = two := by
  have digits := congrArg String.toList same
  rw [Nat.toList_repr, Nat.toList_repr] at digits
  rw [← Nat.ofDigitChars_ten_toDigits (n := one), digits, Nat.ofDigitChars_ten_toDigits]

theorem InetAddress.toIpPort_length (addr : InetAddress) : addr.toIpPort.length ≤ 21 := by
  obtain ⟨⟨a, b, c, d⟩, port⟩ := addr
  have octet : ∀ byte : UInt8, byte.toNat.repr.length ≤ 3 := fun byte =>
    (Nat.length_repr_le_iff (by decide)).mpr (by have := byte.toNat_lt; omega)
  have digits : port.toNat.repr.length ≤ 5 :=
    (Nat.length_repr_le_iff (by decide)).mpr (by have := port.toNat_lt; omega)
  have := octet a
  have := octet b
  have := octet c
  have := octet d
  simp only [toIpPort, toIp, Nat.toString_eq_repr, String.length_append,
    show ".".length = 1 from rfl, show ":".length = 1 from rfl]
  omega

/-- The buffer of `newConnection` holds the address and the number of every connection. -/
theorem connName_eq {ipPort : String} (short : ipPort.length ≤ 21) (name : String) {id : Nat}
    (small : id < intMax) :
    connName name ipPort id = name ++ ("-" ++ ipPort ++ "#" ++ id.repr) := by
  have digits : id.repr.length ≤ 10 :=
    (Nat.length_repr_le_iff (by decide)).mpr (by unfold intMax at small; omega)
  have fits : ("-" ++ ipPort ++ "#" ++ id.repr).toList.length ≤ 63 := by
    simp only [String.length_toList, String.length_append, show "-".length = 1 from rfl,
      show "#".length = 1 from rfl]
    omega
  rw [connName, Nat.toString_eq_repr, List.take_of_length_le fits, String.ofList_toList]

/-- Two connections of one server have different names. -/
theorem connName_injective {ipPort : String} (short : ipPort.length ≤ 21) (name : String)
    {one two : Nat} (smallOne : one < intMax) (smallTwo : two < intMax)
    (same : connName name ipPort one = connName name ipPort two) : one = two := by
  rw [connName_eq short name smallOne, connName_eq short name smallTwo] at same
  have lists := congrArg String.toList same
  simp only [String.toList_append] at lists
  exact repr_injective (String.toList_inj.mp
    (List.append_cancel_left (List.append_cancel_left lists)))

end KamaWebserver
