import Legible.Color.Basic

/-!
# Linear light

An sRGB channel stores intensity on a curve: shares up to 0.04045 are divided by
12.92, larger ones go through the power 2.4. The table holds the binary64 value of
that curve at each of the 256 channel values, as a whole number of units of
`2 ^ (-64)`, so that what is measured on colors is exact integer arithmetic.
-/

namespace Legible.Color

/-- The curve from a stored share to linear light. -/
def linearLight (share : Float) : Float :=
  if share ≤ 0.04045 then share / 12.92 else ((share + 0.055) / 1.055).pow 2.4

/-- The curve at every channel value, in units of `2 ^ (-64)`. -/
def linearLightTable : Array Nat := #[
  0x0, 0x13e45677c176f7, 0x27c8acef82edee, 0x3bad03674464e4, 0x4f9159df05dbdc,
  0x6375b056c752d0, 0x775a06ce88c9c8, 0x8b3e5d464a40c0, 0x9f22b3be0bb7b8, 0xb3070a35cd2ea8,
  0xc6eb60ad8ea5a0, 0xdb518da92ce4c8, 0xf0f18eb864cee8, 0x107c38bf8583a90, 0x11fcc2beed64210,
  0x1390ffaf95e2790, 0x153936cc7bc9280, 0x16f5addb50c9150, 0x18c6a94031b5610,
  0x1aac6c0fb973510, 0x1ca7381f9f602b0, 0x1eb74e160978d00, 0x20dced77b525700,
  0x231854b51500880, 0x2569c1367e15c60, 0x27d16f677bd2ca0, 0x2a4f9ac15f170a0,
  0x2ce47dd51a6e120, 0x2f9052547b6d660, 0x3253511acf6a420, 0x352db235002d7a0,
  0x381face933f56c0, 0x3b2977bdfae81c0, 0x3e4b488113107e0, 0x4185544dcb1a500,
  0x44d7cf930b33880, 0x4842ee190ac5c80, 0x4bc6e306b91af40, 0x4f63e0e6de702c0,
  0x531a19acfa7e900, 0x56e9beb9e50c4c0, 0x5ad300e034b7b80, 0x5ed610686fceb00,
  0x62f31d150ab76c0, 0x672a56263722d40, 0x6b7bea5d8700800, 0x6fe8080165ef640,
  0x746edce06bb07c0, 0x7910965489ef280, 0x7dcd61461786d40, 0x82a56a2ebb43c00,
  0x8798dd1c37f9300, 0x8ca7e5b31ba3d80, 0x91d2af315331500, 0x97196470a468880,
  0x9c7c2fe90f56780, 0xa1fb3bb31887f80, 0xa796b189fd46800, 0xad4ebacdd2f6800,
  0xb323808592a7700, 0xb9152b6111cf700, 0xbf23e3bae921380, 0xc54fd19a4a58380,
  0xcb991cb4c5ce600, 0xd1ffec70009c480, 0xd88467e35bfde00, 0xdf26b5d98ea9100,
  0xe5e6fcd230b7900, 0xecc563033ac1980, 0xf3c20e5a78b6f80, 0xfadd247ef102400,
  0x10216cad24076500, 0x1096f2671eb81500, 0x110e65c38a519200, 0x1187c90bf8bce200,
  0x12031e85f5d6da00, 0x128068731a195200, 0x12ffa9111cb94b00, 0x1380e299e53f9200,
  0x140417439ca10f00, 0x14894940bddbfb00, 0x15107ac0261e5900, 0x1599aded247aac00,
  0x1624e4ef892ed400, 0x16b221ebb4817e00, 0x17416702a539d100, 0x17d2b65206b52700,
  0x186611f43e9e6a00, 0x18fb7c007a4a7000, 0x1992f68abbbc8900, 0x1a2c83a3e6566d00,
  0x1ac82559cb364400, 0x1b65ddb735460400, 0x1c05aec3f4fe5e00, 0x1ca79a84ebe03000,
  0x1d4ba2fc17a6a500, 0x1df1ca289d34b800, 0x1e9a1206d3400300, 0x1f447c904cbb4e00,
  0x1ff10bbbe302c200, 0x209fc17dbfcbe200, 0x21509fc766db1e00, 0x2203a887bf80de00,
  0x22b8ddab1ddfbe00, 0x2370411b4bfde000, 0x2429d4bf92a29400, 0x24e59a7cc2024600,
  0x25a394353a39f600, 0x2663c3c8f39bea00, 0x27262b1586ce9c00, 0x27eacbf634bfaa00,
  0x28b1a843ee6bbe00, 0x297ac1d55c7ce600, 0x2a461a7ee6c06800, 0x2b13b412bb754200,
  0x2be39060d6747800, 0x2cb5b13708345600, 0x2d8a1860fca77e00, 0x2e60c7a841f90000,
  0x2f39c0d44f260600, 0x301505aa8a76ba00, 0x30f297ee4fd67e00, 0x31d27960f70cf200,
  0x32b4abc1d9d81600, 0x339930ce59e8fc00, 0x34800a41e6c33800, 0x356939d603800600,
  0x3654c1424c761400, 0x3742a23c7cc65a00, 0x3832de7873cede00, 0x392577a83a83fc00,
  0x3a1a6f7c08b0a200, 0x3b11c7a24a1ed000, 0x3c0b81c7a3a7c000, 0x3d079f96f82de000,
  0x3e0622b96d7fa600, 0x3f070cd671249a00, 0x400a5f93bd154c00, 0x41101c955c5de800,
  0x4218457daface800, 0x4322dbed71cd7800, 0x442fe183bc0e6800, 0x453f57de0a969800,
  0x4651409840a65c00, 0x47659d4cacc6c400, 0x487c6f940ce79c00, 0x4995b905926b8c00,
  0x4ab17b36e623e000, 0x4bcfb7bc2c3b6000, 0x4cf070280810e000, 0x4e13a60ba002c400,
  0x4f395af6a12a0400, 0x506190774306f000, 0x518c481a4b1ebc00, 0x52b9836b108a7400,
  0x53e943f37f785400, 0x551b8b3c1c9ea400, 0x56505acc08a16000, 0x5787b429036aac00,
  0x58c198d76f75ec00, 0x59fe0a5a550e8800, 0x5b3d0a336581e400, 0x5c7e99e2fe457400,
  0x5dc2bae82c10a800, 0x5f096ec0adeb1400, 0x6052b6e8f82f6400, 0x619e94dc3782c400,
  0x62ed0a1453c19c00, 0x643e1809f2e13800, 0x6591c0347bc6c400, 0x66e8040a19148400,
  0x6840e4ffbbebf400, 0x699c64891ea6f800, 0x6afa8418c7865400, 0x6c5b45200b572800,
  0x6dbea90f100eec00, 0x6f24b154cf5e1400, 0x708d5f5f19397400, 0x71f8b49a965b7800,
  0x7366b272cabbc800, 0x74d75a5217ff1400, 0x764aada1bfde0800, 0x77c0adc9e6843400,
  0x79395c3194e71400, 0x7ab4ba3ebb149800, 0x7c32c956327a9000, 0x7db38adbc0260c00,
  0x7f37003216fb0800, 0x80bd2abad9e59000, 0x82460bd69e025800, 0x83d1a4e4ecc1b800,
  0x855ff74446028000, 0x86f1045222264000, 0x8884cd6af41f5800, 0x8a1b53ea2b777800,
  0x8bb4992a36509000, 0x8d509e84835ed000, 0x8eef655183dc2800, 0x9090eee8ad767000,
  0x92353ca07c368800, 0x93dc4fce74625800, 0x958629c724583800, 0x9732cbde26650000,
  0x98e2376622946800, 0x9a946db0d07b9800, 0x9c49700ef8fe6000, 0x9e013fd0780f5800,
  0x9fbbde443e69d800, 0xa1794cb85347c000, 0xa3398c79d6116800, 0xa4fc9ed500089800,
  0xa6c2851525ef0800, 0xa88b4084b9a72800, 0xaa56d26d4bd0d800, 0xac253c178d611800,
  0xadf67ecb5134c000, 0xafca9bcf8d9f6800, 0xb1a1946a5df4b800, 0xb37b69e1040e7800,
  0xb5581d77e9cd5000, 0xb737b072a2958800, 0xb91a2413ecc7b000, 0xbaff799db334d800,
  0xbce7b2510e8f1000, 0xbed2cf6e46d58000, 0xc0c0d234d4bc3800, 0xc2b1bbe363112000,
  0xc4a58db7d01bb800, 0xc69c48ef2efa4800, 0xc895eec5c8fa2800, 0xca9280771eed2800,
  0xcc91ff3dea7b3800, 0xce946c541f6fe000, 0xd099c8f2ed04f800, 0xd2a21652bf297000,
  0xd4ad55ab3fc47800, 0xd6bb883357f61000, 0xd8ccaf2131534800, 0xdae0cbaa371fc000,
  0xdcf7df0317843000, 0xdf11ea5fc4c0d800, 0xe12eeef3765dd800, 0xe34eedf0aa578800,
  0xe571e88926485800, 0xe797dfedf88f8800, 0xe9c0d54f79741000, 0xebecc9dd4c46a000,
  0xee1bbec6607ea800, 0xf04db538f2d53000, 0xf282ae628e5da000, 0xf4baab700d9a8800,
  0xf6f5ad8d9b90b000, 0xf933b5e6b4d6f000, 0xfb74c5a628a33000, 0xfdb8ddf619d59000,
  0x10000000000000000]

/-- Linear light of a channel, in units of `2 ^ (-64)`. -/
def linearLightUnits (channel : UInt8) : Nat :=
  linearLightTable[channel.toNat]?.getD 0

/-- Every channel value has an entry. -/
theorem size_linearLightTable : linearLightTable.size = 256 := by
  decide +kernel

end Legible.Color
