import DecodeTables.Description.Yaml

/-!
# The built-in description

RV64I with the M, Zicsr and Zifencei extensions and the privileged returns, as a document in YAML.
-/

namespace DecodeTables

/-- The text of the built-in description. -/
def rv64Text : String := "# RV64I + M + Zicsr + Zifencei + privileged returns.
lui:
  encoding: '-------------------------0110111'
  variable_fields: [rd, imm20]
  extension: [rv_i]
  match: '0x37'
  mask: '0x7f'
auipc:
  encoding: '-------------------------0010111'
  variable_fields: [rd, imm20]
  extension: [rv_i]
  match: '0x17'
  mask: '0x7f'
jal:
  encoding: '-------------------------1101111'
  variable_fields: [rd, jimm20]
  extension: [rv_i]
  match: '0x6f'
  mask: '0x7f'
jalr:
  encoding: '-----------------000-----1100111'
  variable_fields: [rd, rs1, imm12]
  extension: [rv_i]
  match: '0x67'
  mask: '0x707f'
beq:
  encoding: '-----------------000-----1100011'
  variable_fields: [bimm12hi, rs1, rs2, bimm12lo]
  extension: [rv_i]
  match: '0x63'
  mask: '0x707f'
bne:
  encoding: '-----------------001-----1100011'
  variable_fields: [bimm12hi, rs1, rs2, bimm12lo]
  extension: [rv_i]
  match: '0x1063'
  mask: '0x707f'
blt:
  encoding: '-----------------100-----1100011'
  variable_fields: [bimm12hi, rs1, rs2, bimm12lo]
  extension: [rv_i]
  match: '0x4063'
  mask: '0x707f'
bge:
  encoding: '-----------------101-----1100011'
  variable_fields: [bimm12hi, rs1, rs2, bimm12lo]
  extension: [rv_i]
  match: '0x5063'
  mask: '0x707f'
bltu:
  encoding: '-----------------110-----1100011'
  variable_fields: [bimm12hi, rs1, rs2, bimm12lo]
  extension: [rv_i]
  match: '0x6063'
  mask: '0x707f'
bgeu:
  encoding: '-----------------111-----1100011'
  variable_fields: [bimm12hi, rs1, rs2, bimm12lo]
  extension: [rv_i]
  match: '0x7063'
  mask: '0x707f'
lb:
  encoding: '-----------------000-----0000011'
  variable_fields: [rd, rs1, imm12]
  extension: [rv_i]
  match: '0x3'
  mask: '0x707f'
lh:
  encoding: '-----------------001-----0000011'
  variable_fields: [rd, rs1, imm12]
  extension: [rv_i]
  match: '0x1003'
  mask: '0x707f'
lw:
  encoding: '-----------------010-----0000011'
  variable_fields: [rd, rs1, imm12]
  extension: [rv_i]
  match: '0x2003'
  mask: '0x707f'
ld:
  encoding: '-----------------011-----0000011'
  variable_fields: [rd, rs1, imm12]
  extension: [rv64_i]
  match: '0x3003'
  mask: '0x707f'
lbu:
  encoding: '-----------------100-----0000011'
  variable_fields: [rd, rs1, imm12]
  extension: [rv_i]
  match: '0x4003'
  mask: '0x707f'
lhu:
  encoding: '-----------------101-----0000011'
  variable_fields: [rd, rs1, imm12]
  extension: [rv_i]
  match: '0x5003'
  mask: '0x707f'
lwu:
  encoding: '-----------------110-----0000011'
  variable_fields: [rd, rs1, imm12]
  extension: [rv64_i]
  match: '0x6003'
  mask: '0x707f'
sb:
  encoding: '-----------------000-----0100011'
  variable_fields: [imm12hi, rs1, rs2, imm12lo]
  extension: [rv_i]
  match: '0x23'
  mask: '0x707f'
sh:
  encoding: '-----------------001-----0100011'
  variable_fields: [imm12hi, rs1, rs2, imm12lo]
  extension: [rv_i]
  match: '0x1023'
  mask: '0x707f'
sw:
  encoding: '-----------------010-----0100011'
  variable_fields: [imm12hi, rs1, rs2, imm12lo]
  extension: [rv_i]
  match: '0x2023'
  mask: '0x707f'
sd:
  encoding: '-----------------011-----0100011'
  variable_fields: [imm12hi, rs1, rs2, imm12lo]
  extension: [rv64_i]
  match: '0x3023'
  mask: '0x707f'
addi:
  encoding: '-----------------000-----0010011'
  variable_fields: [rd, rs1, imm12]
  extension: [rv_i]
  match: '0x13'
  mask: '0x707f'
slti:
  encoding: '-----------------010-----0010011'
  variable_fields: [rd, rs1, imm12]
  extension: [rv_i]
  match: '0x2013'
  mask: '0x707f'
sltiu:
  encoding: '-----------------011-----0010011'
  variable_fields: [rd, rs1, imm12]
  extension: [rv_i]
  match: '0x3013'
  mask: '0x707f'
xori:
  encoding: '-----------------100-----0010011'
  variable_fields: [rd, rs1, imm12]
  extension: [rv_i]
  match: '0x4013'
  mask: '0x707f'
ori:
  encoding: '-----------------110-----0010011'
  variable_fields: [rd, rs1, imm12]
  extension: [rv_i]
  match: '0x6013'
  mask: '0x707f'
andi:
  encoding: '-----------------111-----0010011'
  variable_fields: [rd, rs1, imm12]
  extension: [rv_i]
  match: '0x7013'
  mask: '0x707f'
slli:
  encoding: '000000-----------001-----0010011'
  variable_fields: [rd, rs1, shamtd]
  extension: [rv64_i]
  match: '0x1013'
  mask: '0xfc00707f'
srli:
  encoding: '000000-----------101-----0010011'
  variable_fields: [rd, rs1, shamtd]
  extension: [rv64_i]
  match: '0x5013'
  mask: '0xfc00707f'
srai:
  encoding: '010000-----------101-----0010011'
  variable_fields: [rd, rs1, shamtd]
  extension: [rv64_i]
  match: '0x40005013'
  mask: '0xfc00707f'
add:
  encoding: '0000000----------000-----0110011'
  variable_fields: [rd, rs1, rs2]
  extension: [rv_i]
  match: '0x33'
  mask: '0xfe00707f'
sub:
  encoding: '0100000----------000-----0110011'
  variable_fields: [rd, rs1, rs2]
  extension: [rv_i]
  match: '0x40000033'
  mask: '0xfe00707f'
sll:
  encoding: '0000000----------001-----0110011'
  variable_fields: [rd, rs1, rs2]
  extension: [rv_i]
  match: '0x1033'
  mask: '0xfe00707f'
slt:
  encoding: '0000000----------010-----0110011'
  variable_fields: [rd, rs1, rs2]
  extension: [rv_i]
  match: '0x2033'
  mask: '0xfe00707f'
sltu:
  encoding: '0000000----------011-----0110011'
  variable_fields: [rd, rs1, rs2]
  extension: [rv_i]
  match: '0x3033'
  mask: '0xfe00707f'
xor:
  encoding: '0000000----------100-----0110011'
  variable_fields: [rd, rs1, rs2]
  extension: [rv_i]
  match: '0x4033'
  mask: '0xfe00707f'
srl:
  encoding: '0000000----------101-----0110011'
  variable_fields: [rd, rs1, rs2]
  extension: [rv_i]
  match: '0x5033'
  mask: '0xfe00707f'
sra:
  encoding: '0100000----------101-----0110011'
  variable_fields: [rd, rs1, rs2]
  extension: [rv_i]
  match: '0x40005033'
  mask: '0xfe00707f'
or:
  encoding: '0000000----------110-----0110011'
  variable_fields: [rd, rs1, rs2]
  extension: [rv_i]
  match: '0x6033'
  mask: '0xfe00707f'
and:
  encoding: '0000000----------111-----0110011'
  variable_fields: [rd, rs1, rs2]
  extension: [rv_i]
  match: '0x7033'
  mask: '0xfe00707f'
addiw:
  encoding: '-----------------000-----0011011'
  variable_fields: [rd, rs1, imm12]
  extension: [rv64_i]
  match: '0x1b'
  mask: '0x707f'
slliw:
  encoding: '0000000----------001-----0011011'
  variable_fields: [rd, rs1, shamtw]
  extension: [rv64_i]
  match: '0x101b'
  mask: '0xfe00707f'
srliw:
  encoding: '0000000----------101-----0011011'
  variable_fields: [rd, rs1, shamtw]
  extension: [rv64_i]
  match: '0x501b'
  mask: '0xfe00707f'
sraiw:
  encoding: '0100000----------101-----0011011'
  variable_fields: [rd, rs1, shamtw]
  extension: [rv64_i]
  match: '0x4000501b'
  mask: '0xfe00707f'
addw:
  encoding: '0000000----------000-----0111011'
  variable_fields: [rd, rs1, rs2]
  extension: [rv64_i]
  match: '0x3b'
  mask: '0xfe00707f'
subw:
  encoding: '0100000----------000-----0111011'
  variable_fields: [rd, rs1, rs2]
  extension: [rv64_i]
  match: '0x4000003b'
  mask: '0xfe00707f'
sllw:
  encoding: '0000000----------001-----0111011'
  variable_fields: [rd, rs1, rs2]
  extension: [rv64_i]
  match: '0x103b'
  mask: '0xfe00707f'
srlw:
  encoding: '0000000----------101-----0111011'
  variable_fields: [rd, rs1, rs2]
  extension: [rv64_i]
  match: '0x503b'
  mask: '0xfe00707f'
sraw:
  encoding: '0100000----------101-----0111011'
  variable_fields: [rd, rs1, rs2]
  extension: [rv64_i]
  match: '0x4000503b'
  mask: '0xfe00707f'
fence:
  encoding: '-----------------000-----0001111'
  variable_fields: [fm, pred, succ, rs1, rd]
  extension: [rv_i]
  match: '0xf'
  mask: '0x707f'
fence_i:
  encoding: '-----------------001-----0001111'
  variable_fields: [imm12, rs1, rd]
  extension: [rv_zifencei]
  match: '0x100f'
  mask: '0x707f'
ecall:
  encoding: '00000000000000000000000001110011'
  variable_fields: []
  extension: [rv_i]
  match: '0x73'
  mask: '0xffffffff'
ebreak:
  encoding: '00000000000100000000000001110011'
  variable_fields: []
  extension: [rv_i]
  match: '0x100073'
  mask: '0xffffffff'
sret:
  encoding: '00010000001000000000000001110011'
  variable_fields: []
  extension: [rv_s]
  match: '0x10200073'
  mask: '0xffffffff'
mret:
  encoding: '00110000001000000000000001110011'
  variable_fields: []
  extension: [rv_system]
  match: '0x30200073'
  mask: '0xffffffff'
wfi:
  encoding: '00010000010100000000000001110011'
  variable_fields: []
  extension: [rv_system]
  match: '0x10500073'
  mask: '0xffffffff'
csrrw:
  encoding: '-----------------001-----1110011'
  variable_fields: [rd, rs1, csr]
  extension: [rv_zicsr]
  match: '0x1073'
  mask: '0x707f'
csrrs:
  encoding: '-----------------010-----1110011'
  variable_fields: [rd, rs1, csr]
  extension: [rv_zicsr]
  match: '0x2073'
  mask: '0x707f'
csrrc:
  encoding: '-----------------011-----1110011'
  variable_fields: [rd, rs1, csr]
  extension: [rv_zicsr]
  match: '0x3073'
  mask: '0x707f'
csrrwi:
  encoding: '-----------------101-----1110011'
  variable_fields: [rd, csr, zimm]
  extension: [rv_zicsr]
  match: '0x5073'
  mask: '0x707f'
csrrsi:
  encoding: '-----------------110-----1110011'
  variable_fields: [rd, csr, zimm]
  extension: [rv_zicsr]
  match: '0x6073'
  mask: '0x707f'
csrrci:
  encoding: '-----------------111-----1110011'
  variable_fields: [rd, csr, zimm]
  extension: [rv_zicsr]
  match: '0x7073'
  mask: '0x707f'
mul:
  encoding: '0000001----------000-----0110011'
  variable_fields: [rd, rs1, rs2]
  extension: [rv_m]
  match: '0x2000033'
  mask: '0xfe00707f'
mulh:
  encoding: '0000001----------001-----0110011'
  variable_fields: [rd, rs1, rs2]
  extension: [rv_m]
  match: '0x2001033'
  mask: '0xfe00707f'
mulhsu:
  encoding: '0000001----------010-----0110011'
  variable_fields: [rd, rs1, rs2]
  extension: [rv_m]
  match: '0x2002033'
  mask: '0xfe00707f'
mulhu:
  encoding: '0000001----------011-----0110011'
  variable_fields: [rd, rs1, rs2]
  extension: [rv_m]
  match: '0x2003033'
  mask: '0xfe00707f'
div:
  encoding: '0000001----------100-----0110011'
  variable_fields: [rd, rs1, rs2]
  extension: [rv_m]
  match: '0x2004033'
  mask: '0xfe00707f'
divu:
  encoding: '0000001----------101-----0110011'
  variable_fields: [rd, rs1, rs2]
  extension: [rv_m]
  match: '0x2005033'
  mask: '0xfe00707f'
rem:
  encoding: '0000001----------110-----0110011'
  variable_fields: [rd, rs1, rs2]
  extension: [rv_m]
  match: '0x2006033'
  mask: '0xfe00707f'
remu:
  encoding: '0000001----------111-----0110011'
  variable_fields: [rd, rs1, rs2]
  extension: [rv_m]
  match: '0x2007033'
  mask: '0xfe00707f'
mulw:
  encoding: '0000001----------000-----0111011'
  variable_fields: [rd, rs1, rs2]
  extension: [rv64_m]
  match: '0x200003b'
  mask: '0xfe00707f'
divw:
  encoding: '0000001----------100-----0111011'
  variable_fields: [rd, rs1, rs2]
  extension: [rv64_m]
  match: '0x200403b'
  mask: '0xfe00707f'
divuw:
  encoding: '0000001----------101-----0111011'
  variable_fields: [rd, rs1, rs2]
  extension: [rv64_m]
  match: '0x200503b'
  mask: '0xfe00707f'
remw:
  encoding: '0000001----------110-----0111011'
  variable_fields: [rd, rs1, rs2]
  extension: [rv64_m]
  match: '0x200603b'
  mask: '0xfe00707f'
remuw:
  encoding: '0000001----------111-----0111011'
  variable_fields: [rd, rs1, rs2]
  extension: [rv64_m]
  match: '0x200703b'
  mask: '0xfe00707f'
"

/-- The built-in description. -/
def Description.rv64 : Except DescriptionError Description := ofYaml rv64Text

end DecodeTables
