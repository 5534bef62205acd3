/-
  Native code that is the same in every generated source.
-/

namespace SurfaceShading.NativeCode

/-- Code given by its lines. -/
def ofLines (lines : List String) : String := String.join (lines.map (· ++ "\n"))

/-- Samplers for every pass. -/
def samplers : String := ofLines [
  "SamplerState LinearWrapSampler : register(s0);",
  "SamplerState LinearClampSampler : register(s1);",
  "SamplerState PointClampSampler : register(s2);",
  "SamplerComparisonState ShadowSampler : register(s3);"]

/-- What a geometry pass writes. The alpha of the third target carries the number of the shading
model. -/
def gbufferOutput : String := ofLines [
  "struct GBufferOutput",
  "\x7b",
  "    float4 Albedo : SV_Target0;",
  "    float4 Normal : SV_Target1;",
  "    float4 ORM : SV_Target2;",
  "    float2 Motion : SV_Target3;",
  "\x7d;",
  "",
  "float3 EncodeNormal(float3 n)",
  "\x7b",
  "    return normalize(n) * 0.5 + 0.5;",
  "\x7d",
  "",
  "float EncodeShadingModel(uint id)",
  "\x7b",
  "    return id / 255.0;",
  "\x7d"]

/-- The geometry buffer, as a lighting pass reads it. -/
def gbufferInputs : String := ofLines [
  "Texture2D GBufferAlbedo : register(t0);",
  "Texture2D GBufferNormal : register(t1);",
  "Texture2D GBufferORM : register(t2);",
  "Texture2D GBufferMotion : register(t3);",
  "Texture2D<float> SceneDepth : register(t4);"]

/-- Inputs that do not depend on the material. -/
def environmentInputs : String := ofLines [
  "TextureCube SkyTexture : register(t5);",
  "Texture2D<float> ShadowMap : register(t6);"]

/-- Functions that take the contents of the geometry buffer apart. -/
def lightingHelpers : String := ofLines [
  "float3 DecodeNormal(float3 encoded)",
  "\x7b",
  "    return normalize(encoded * 2.0 - 1.0);",
  "\x7d",
  "",
  "uint DecodeShadingModel(float encoded)",
  "\x7b",
  "    return (uint)round(encoded * 255.0);",
  "\x7d",
  "",
  "float3 ReconstructWorldPosition(float2 uv, float depth)",
  "\x7b",
  "    float4 ndc = float4(uv.x * 2.0 - 1.0, 1.0 - uv.y * 2.0, depth, 1.0);",
  "    float4 world = mul(InvViewProjection, ndc);",
  "    return world.xyz / world.w;",
  "\x7d"]

/-- The input of a reflectance function, and the standard one. -/
def reflectance : String := ofLines [
  "struct BRDFInput",
  "\x7b",
  "    float3 albedo;",
  "    float3 normal;",
  "    float3 viewDir;",
  "    float3 lightDir;",
  "    float3 lightColor;",
  "    float roughness;",
  "    float metallic;",
  "    float ao;",
  "\x7d;",
  "",
  "static const float PI = 3.14159265;",
  "",
  "float DistributionGGX(float NdotH, float roughness)",
  "\x7b",
  "    float a = roughness * roughness;",
  "    float a2 = a * a;",
  "    float d = NdotH * NdotH * (a2 - 1.0) + 1.0;",
  "    return a2 / max(PI * d * d, 1e-6);",
  "\x7d",
  "",
  "float GeometrySmith(float NdotV, float NdotL, float roughness)",
  "\x7b",
  "    float k = (roughness + 1.0) * (roughness + 1.0) / 8.0;",
  "    float gv = NdotV / (NdotV * (1.0 - k) + k);",
  "    float gl = NdotL / (NdotL * (1.0 - k) + k);",
  "    return gv * gl;",
  "\x7d",
  "",
  "float3 FresnelSchlick(float cosTheta, float3 f0)",
  "\x7b",
  "    return f0 + (1.0 - f0) * pow(saturate(1.0 - cosTheta), 5.0);",
  "\x7d",
  "",
  "float3 StandardBRDF(BRDFInput input)",
  "\x7b",
  "    float3 h = normalize(input.viewDir + input.lightDir);",
  "    float NdotL = saturate(dot(input.normal, input.lightDir));",
  "    float NdotV = max(dot(input.normal, input.viewDir), 1e-4);",
  "    float NdotH = saturate(dot(input.normal, h));",
  "",
  "    float3 f0 = lerp(float3(0.04, 0.04, 0.04), input.albedo, input.metallic);",
  "    float3 F = FresnelSchlick(saturate(dot(h, input.viewDir)), f0);",
  "    float D = DistributionGGX(NdotH, input.roughness);",
  "    float G = GeometrySmith(NdotV, NdotL, input.roughness);",
  "",
  "    float3 specular = D * G * F / max(4.0 * NdotV * NdotL, 1e-4);",
  "    float3 diffuse = (1.0 - F) * (1.0 - input.metallic) * input.albedo / PI;",
  "    return (diffuse + specular) * input.lightColor * NdotL;",
  "\x7d"]

end SurfaceShading.NativeCode
